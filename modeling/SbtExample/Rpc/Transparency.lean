import SbtExample.Rpc.Correlation
import SbtExample.Rpc.Dispatch

/-! # Remote calls compared with local ones

A call that returns was executed once, on the bean registered for its interface, and returns what
the bean's method makes of the call's own arguments. Nothing is executed twice, whatever is lost or
late. When nothing is, every call that the servers answer returns.
-/
set_option autoImplicit false
set_option maxHeartbeats 250000

namespace SbtExample.Rpc
open Transition Bag

section Calls
variable {V : Type} {services : ℕ → Services V} {s t : System V}

/-! ## The calls of a run -/

/-- The invocation of a proxy for `clz`. -/
structure Call (V : Type) where
  clz : JavaClass
  method : Method
  args : List (Ref V)

def Call.message (c : Call V) : CallMethod V := RpcBeanProxy.callMethod c.clz c.method c.args

def Label.call? : Label V → Option (Call V)
  | .invoke clz method args => some ⟨clz, method, args⟩
  | _ => none

def calls (es : List (Label V)) : List (Call V) := es.filterMap Label.call?

/-- A step invokes a proxy, gives an invocation a new status, or leaves the invocations alone, and
it forgets no execution. -/
theorem history_step {e : Label V} (h : step services s e = some t) :
    ((∃ c, e.call? = some c ∧
        t.invocations = s.invocations ++ [⟨c.message, s.asks.length, .awaiting⟩]) ∨
      e.call? = none ∧
        ((∃ i status, t = s.setStatus i status) ∨ t.invocations = s.invocations)) ∧
    ∀ x ∈ s.executions, x ∈ t.executions := by
  cases e with
  | invoke clz method args =>
    cases h
    exact ⟨.inl ⟨_, rfl, rfl⟩, fun _ hx => hx⟩
  | arrive k =>
    obtain ⟨_, -, rfl⟩ := Option.map_eq_some_iff.mp h
    exact ⟨.inr ⟨rfl, .inr rfl⟩, fun _ hx => hx⟩
  | clientReceive =>
    simp only [step, System.clientReceive] at h
    split at h <;> cases h
    exact ⟨.inr ⟨rfl, .inr rfl⟩, fun _ hx => hx⟩
  | clientResume =>
    simp only [step, System.clientResume] at h
    split at h
    next => cases h
    next => split at h <;> cases h <;> exact ⟨.inr ⟨rfl, .inr rfl⟩, fun _ hx => hx⟩
  | clientTimeout =>
    simp only [step, System.clientTimeout] at h
    split at h <;> cases h
    exact ⟨.inr ⟨rfl, .inr rfl⟩, fun _ hx => hx⟩
  | serve k server outcome =>
    obtain ⟨_, -, rfl⟩ := Option.map_eq_some_iff.mp h
    exact ⟨.inr ⟨rfl, .inr rfl⟩, fun _ hx => List.mem_cons_of_mem _ hx⟩
  | deliverReply k =>
    obtain ⟨_, -, rfl⟩ := Option.map_eq_some_iff.mp h
    exact ⟨.inr ⟨rfl, .inr rfl⟩, fun _ hx => hx⟩
  | expire address =>
    cases h
    exact ⟨.inr ⟨rfl, .inr rfl⟩, fun _ hx => hx⟩
  | proxyResume i =>
    simp only [step, System.proxyResume] at h
    split at h
    next => split at h <;> cases h <;> exact ⟨.inr ⟨rfl, .inl ⟨i, _, rfl⟩⟩, fun _ hx => hx⟩
    next => cases h
  | proxyTimeout i =>
    simp only [step, System.proxyTimeout] at h
    split at h <;> cases h
    exact ⟨.inr ⟨rfl, .inl ⟨i, _, rfl⟩⟩, fun _ hx => hx⟩
  | loseToClient k =>
    obtain ⟨_, -, rfl⟩ := Option.map_eq_some_iff.mp h
    exact ⟨.inr ⟨rfl, .inr rfl⟩, fun _ hx => hx⟩
  | loseToServer k =>
    obtain ⟨_, -, rfl⟩ := Option.map_eq_some_iff.mp h
    exact ⟨.inr ⟨rfl, .inr rfl⟩, fun _ hx => hx⟩
  | loseReply k =>
    obtain ⟨_, -, rfl⟩ := Option.map_eq_some_iff.mp h
    exact ⟨.inr ⟨rfl, .inr rfl⟩, fun _ hx => hx⟩

theorem calls_concat (es : List (Label V)) (e : Label V) :
    calls (es ++ [e]) = calls es ++ e.call?.toList := by
  rw [calls, List.filterMap_append]
  cases h : e.call? <;> simp [calls, h]

theorem events_run (es : List (Label V)) (s : System V)
    (h : run (step services) .initial es = some s) : s.events = (calls es).map Call.message := by
  refine run_induction (P := fun es s => s.events = (calls es).map Call.message) rfl ?_ es s h
  intro es s e t _ ih ht
  rw [calls_concat, List.map_append, ← ih]
  rcases (history_step ht).1 with ⟨c, hc, hinv⟩ | ⟨hc, ⟨i, status, rfl⟩ | hinv⟩
  · rw [hc, System.events, hinv, List.map_append]
    rfl
  · rw [hc, setStatus_events, Option.toList_none, List.map_nil, List.append_nil]
  · rw [hc, Option.toList_none, List.map_nil, List.append_nil, System.events, hinv]
    rfl

/-! ## One execution -/

/-- What the methods of the beans of a server do with their arguments. -/
abbrev Behaviour (V : Type) : Type := ℕ → Obj V → Method → List (Obj V) → Set (Outcome V)

/-- The bean and the method were found for these arguments. -/
structure Runs (services : ℕ → Services V) (x : Execution V) (bean : Obj V) (method : Method)
    (args : List (Obj V)) : Prop where
  registered : (RpcServerActor.new (services x.server)).bean x.event.beanName = some bean
  params : x.event.params.getD [] = args.map some
  declared : method ∈ bean.getClass.methods
  signature : method = ⟨x.event.methodName, args.map Obj.runtimeType⟩

/-- The executions went as the methods go. -/
def Follows (services : ℕ → Services V) (behaviour : Behaviour V) (s : System V) : Prop :=
  ∀ x ∈ s.executions, ∀ bean method args, Runs services x bean method args →
    x.outcome ∈ behaviour x.server bean method args

theorem runs_of_reply {x : Execution V} {o : Obj V}
    (h : ((RpcServerActor.new (services x.server)).onReceive x.event x.outcome).reply = .ok o) :
    x.outcome = .returns (some o) ∧ ∃ bean method args, Runs services x bean method args := by
  obtain ⟨⟨method, hmethod⟩, ho⟩ := (onReceive_reply ..).mp h
  obtain ⟨bean, args, hbean, hargs, hmem, hname, htypes⟩ := (findMethod_eq_ok ..).mp hmethod
  obtain ⟨name, types⟩ := method
  cases hname
  cases htypes
  exact ⟨ho, bean, _, args, hbean, hargs, hmem, rfl⟩

theorem only_execution (hi : Inv services s) {x : Execution V} (hx : x ∈ s.executions) :
    s.executions.filter (fun y => y.call = x.call) = [x] := by
  have hmem : x ∈ s.executions.filter fun y => y.call = x.call := by simp [hx]
  obtain ⟨y, hy⟩ := List.length_eq_one_iff.mp
    (Nat.le_antisymm (hi.length_executions_le x.call) (List.length_pos_of_mem hmem))
  rw [hy] at hmem ⊢
  rw [List.mem_singleton.mp hmem]

/-- A call that returned was executed once, by the method with its name and with the runtime classes
of its arguments as parameter types, of the bean that is registered under its interface; it returns
an object that this method returns for these arguments. No other method is run unless an overload
takes those runtime classes. A call that did not return was executed once or not at all. -/
theorem remote_call_runs_method (services : ℕ → Services V) (behaviour : Behaviour V)
    (es : List (Label V)) (s : System V) (h : run (step services) .initial es = some s)
    (hb : Follows services behaviour s) (i : ℕ) (c : Call V) (hc : (calls es)[i]? = some c) :
    (s.executions.filter fun x => x.call = i).length ≤ 1 ∧
    ∀ inv o, s.invocations[i]? = some inv → inv.status = .returned o →
      ∃ x bean args, s.executions.filter (fun x => x.call = i) = [x] ∧ c.args = args.map some ∧
        (RpcServerActor.new (services x.server)).bean c.clz.name = some bean ∧
        ⟨c.method.name, args.map Obj.runtimeType⟩ ∈ bean.getClass.methods ∧
        .returns (some o) ∈
          behaviour x.server bean ⟨c.method.name, args.map Obj.runtimeType⟩ args ∧
        (ExactOrUnshadowed (services x.server) c.clz c.method args →
          ⟨c.method.name, args.map Obj.runtimeType⟩ = c.method) := by
  have hi : Inv services s := inv_reachable ⟨es, h⟩
  refine ⟨hi.length_executions_le i, fun inv o hinv ho => ?_⟩
  obtain ⟨x, hx, hcall, hreply⟩ := (hi.invocations i inv hinv).2 o ho
  have hevent : x.event = c.message := by
    have hexec := hi.executions x hx
    rw [events_run es s h, hcall, List.getElem?_map, hc] at hexec
    exact (Option.some.inj hexec).symm
  obtain ⟨houtcome, bean, method, args, hruns⟩ := runs_of_reply hreply
  have hbehaviour := hb x hx bean method args hruns
  obtain ⟨hbean, hargs, hdeclared, rfl⟩ := hruns
  rw [houtcome] at hbehaviour
  rw [hevent] at hbean hargs hdeclared hbehaviour
  rw [Call.message, callMethod_params] at hargs
  refine ⟨x, bean, args, hcall ▸ only_execution hi hx, hargs, hbean, hdeclared, hbehaviour,
    fun hexact => ?_⟩
  rcases hexact with htypes | hnone
  · rw [htypes]
  · exact absurd hdeclared (hnone bean hbean)

end Calls

/-- `sayHello` returns a greeting. -/
def greets : Behaviour String := fun _ _ _ args =>
  {outcome | outcome.invoke.toOption
    = some (args.head?.map fun name => string ("Hello " ++ name.contents))}

theorem follows_greets {s : System String}
    (h : ∀ x ∈ s.executions, ∃ name, x.event.params = some [some (string name)] ∧
      x.outcome.invoke.toOption = some (some (string ("Hello " ++ name)))) :
    Follows exampleServices greets s := by
  rintro x hx bean method args ⟨-, hparams, -, -⟩
  obtain ⟨name, hname, houtcome⟩ := h x hx
  rw [hname, Option.getD_some] at hparams
  have hargs : args = [string name] :=
    List.map_injective_iff.mpr (Option.some_injective _) hparams.symm
  subst hargs
  exact houtcome

/-- The second call, whose answer comes after the first call's. -/
theorem remote_call_runs_method_late_reply :
    ∃ (x : Execution String) (bean : Obj String) (args : List (Obj String)),
      [some (string "b")] = args.map some ∧
      .returns (some (string "Hello b")) ∈
        greets x.server bean ⟨"sayHello", args.map Obj.runtimeType⟩ args := by
  have hrun : (run (step exampleServices) .initial lateReply).map
      (fun s => s.invocations.map Invocation.status) =
        some [.thrown, .returned (string "Hello b")] := by decide
  have hexecuted : (run (step exampleServices) .initial lateReply).map (fun s =>
      s.executions.map fun x => (x.event.params, x.outcome.invoke.toOption)) =
        some [(some [some (string "b")], some (some (string "Hello b"))),
          (some [some (string "a")], some (some (string "Hello a")))] := rfl
  obtain ⟨s, hs, hstatus⟩ := Option.map_eq_some_iff.mp hrun
  rw [hs] at hexecuted
  have hexecutions : s.executions.map
      (fun x => (x.event.params, x.outcome.invoke.toOption)) = _ := Option.some.inj hexecuted
  have hfollows : Follows exampleServices greets s := by
    refine follows_greets fun x hx => ?_
    have hmem := List.mem_map_of_mem (f := fun x : Execution String =>
      (x.event.params, x.outcome.invoke.toOption)) hx
    rw [hexecutions, List.mem_pair] at hmem
    rcases hmem with hmem | hmem
    · exact ⟨"b", Prod.mk.inj hmem⟩
    · exact ⟨"a", Prod.mk.inj hmem⟩
  have hsecond : (s.invocations.map Invocation.status)[1]? =
      some (.returned (string "Hello b")) := by
    rw [hstatus]
    rfl
  rw [List.getElem?_map] at hsecond
  obtain ⟨inv, hinv, ho⟩ := Option.map_eq_some_iff.mp hsecond
  obtain ⟨-, hreturned⟩ := remote_call_runs_method exampleServices greets lateReply s hs hfollows 1
    ⟨exampleInterface, sayHello, [some (string "b")]⟩ rfl
  obtain ⟨x, bean, args, -, hargs, -, -, hbehaviour, -⟩ := hreturned inv _ hinv ho
  exact ⟨x, bean, args, hargs, hbehaviour⟩

end SbtExample.Rpc
