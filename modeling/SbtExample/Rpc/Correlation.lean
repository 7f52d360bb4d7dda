import SbtExample.Rpc.Calls

/-! # Every value belongs to its call

The invariant ties each message in flight and each ask to the call it was made for. A step only
extends what has been invoked, asked and executed, so that the facts of the earlier state go over to
the later one, and what a step adds is tied to the call of the message it handled.
-/
set_option autoImplicit false
set_option maxHeartbeats 250000

namespace SbtExample.Rpc
open Bag

section Correlation
variable {V : Type} {services : ℕ → Services V} {s t : System V}

/-! ## The invariant -/

def System.events (s : System V) : List (CallMethod V) := s.invocations.map Invocation.event

def System.callAt (s : System V) (address : ℕ) : Option ℕ := (Ask.askers s.asks)[address]?

def Computed (services : ℕ → Services V) (executions : List (Execution V)) (call : ℕ) (o : Obj V) :
    Prop :=
  ∃ x ∈ executions, x.call = call ∧
    ((RpcServerActor.new (services x.server)).onReceive x.event x.outcome).reply = .ok o

def System.envelopes (s : System V) : List (Envelope V) := s.toClient ++ s.mailbox ++ s.toServer

/-- The calls whose message is on its way or has been executed. -/
def System.traces (s : System V) : List ℕ :=
  s.envelopes.map Envelope.call ++ s.executions.map Execution.call

structure Inv (services : ℕ → Services V) (s : System V) : Prop where
  envelopes : ∀ e ∈ s.envelopes, s.events[e.call]? = some e.event ∧
    s.callAt e.sender = some e.call
  client : ∀ sender future, s.client = .awaiting sender future →
    ∃ call, s.callAt sender = some call ∧ s.callAt future = some call
  replies : ∀ r ∈ s.replies, ∃ call, s.callAt r.1 = some call ∧
    Computed services s.executions call r.2
  futures : Ask.Sound (Computed services s.executions) s.asks
  invocations : ∀ i inv, s.invocations[i]? = some inv → s.callAt inv.future = some i ∧
    ∀ o, inv.status = .returned o → Computed services s.executions i o
  executions : ∀ x ∈ s.executions, s.events[x.call]? = some x.event
  once : s.traces.Nodup

theorem inv_initial : Inv services (System.initial : System V) where
  envelopes _ h := nomatch h
  client _ _ h := nomatch h
  replies _ h := nomatch h
  futures _ h := nomatch h
  invocations _ _ h := nomatch h
  executions _ h := nomatch h
  once := List.nodup_nil

theorem Inv.trace_lt (hi : Inv services s) {call : ℕ} (h : call ∈ s.traces) :
    call < s.invocations.length := by
  have hlt : ∀ event, s.events[call]? = some event → call < s.invocations.length := by
    intro event he
    have hlen := (List.getElem?_eq_some_iff.mp he).1
    rwa [System.events, List.length_map] at hlen
  rcases List.mem_append.mp h with h | h
  · obtain ⟨e, he, rfl⟩ := List.mem_map.mp h
    exact hlt _ (hi.envelopes e he).1
  · obtain ⟨x, hx, rfl⟩ := List.mem_map.mp h
    exact hlt _ (hi.executions x hx)

/-! ## What a step may extend -/

theorem Computed.cons {executions : List (Execution V)} {call : ℕ} {o : Obj V}
    (h : Computed services executions call o) (x : Execution V) :
    Computed services (x :: executions) call o := by
  obtain ⟨y, hy, hcall, hreply⟩ := h
  exact ⟨y, List.mem_cons_of_mem x hy, hcall, hreply⟩

theorem askers_fresh_of_some {asks : List (Ask.Promise ℕ (Obj V))} {address call : ℕ} (a : ℕ)
    (h : (Ask.askers asks)[address]? = some call) :
    (Ask.askers (Ask.fresh asks a))[address]? = some call := by
  rw [Ask.askers_fresh]
  exact getElem?_concat_of_some a h

theorem askers_fresh_length (asks : List (Ask.Promise ℕ (Obj V))) (a : ℕ) :
    (Ask.askers (Ask.fresh asks a))[asks.length]? = some a := by
  rw [Ask.askers_fresh]
  simp [Ask.askers]

/-! ## The steps of the proxies -/

theorem Inv.invoke (hi : Inv services s) (clz : JavaClass) (method : Method) (args : List (Ref V)) :
    Inv services (s.invoke clz method args) := by
  have hevents : (s.invoke clz method args).events =
      s.events ++ [RpcBeanProxy.callMethod clz method args] := by
    simp [System.invoke, System.events]
  have hcall : ∀ {address call : ℕ}, s.callAt address = some call →
      (s.invoke clz method args).callAt address = some call :=
    fun h => askers_fresh_of_some _ h
  have hnew : (s.invoke clz method args).callAt s.asks.length = some s.invocations.length :=
    askers_fresh_length s.asks s.invocations.length
  refine
    { envelopes := ?_
      client := ?_
      replies := ?_
      futures := hi.futures.fresh s.invocations.length
      invocations := ?_
      executions := ?_
      once := ?_ }
  · intro e he
    rw [hevents]
    rcases List.mem_cons.mp he with rfl | he
    · exact ⟨by simp [System.events], hnew⟩
    · obtain ⟨hevent, hsender⟩ := hi.envelopes e he
      exact ⟨getElem?_concat_of_some _ hevent, hcall hsender⟩
  · intro sender future h
    obtain ⟨call, h1, h2⟩ := hi.client sender future h
    exact ⟨call, hcall h1, hcall h2⟩
  · intro r hr
    obtain ⟨call, h1, h2⟩ := hi.replies r hr
    exact ⟨call, hcall h1, h2⟩
  · intro i inv h
    rcases getElem?_concat_cases h with h | ⟨rfl, rfl⟩
    · obtain ⟨h1, h2⟩ := hi.invocations i inv h
      exact ⟨hcall h1, h2⟩
    · exact ⟨hnew, fun o ho => nomatch ho⟩
  · intro x hx
    rw [hevents]
    exact getElem?_concat_of_some _ (hi.executions x hx)
  · refine List.nodup_cons.mpr ⟨fun hmem => ?_, hi.once⟩
    exact absurd (hi.trace_lt hmem) (lt_irrefl _)

theorem setStatus_events (s : System V) (i : ℕ) (status : Status V) :
    (s.setStatus i status).events = s.events := by
  apply List.ext_getElem?
  intro j
  simp only [System.setStatus, System.events, List.getElem?_map, List.getElem?_modify]
  cases s.invocations[j]? with
  | none => rfl
  | some inv => by_cases hij : i = j <;> simp [hij]

theorem Inv.setStatus (hi : Inv services s) (i : ℕ) (status : Status V)
    (h : ∀ o, status = .returned o → Computed services s.executions i o) :
    Inv services (s.setStatus i status) := by
  have hevents := setStatus_events s i status
  refine
    { envelopes := hevents ▸ hi.envelopes
      client := hi.client
      replies := hi.replies
      futures := hi.futures
      invocations := ?_
      executions := hevents ▸ hi.executions
      once := hi.once }
  intro j inv hj
  rw [System.setStatus, List.getElem?_modify] at hj
  obtain ⟨inv', hinv', rfl⟩ := Option.map_eq_some_iff.mp hj
  obtain ⟨hfuture, hreturned⟩ := hi.invocations j inv' hinv'
  by_cases hij : i = j
  · subst hij
    rw [if_pos rfl]
    exact ⟨hfuture, h⟩
  · rw [if_neg hij]
    exact ⟨hfuture, hreturned⟩

theorem Inv.proxyResume (hi : Inv services s) {i : ℕ} (h : s.proxyResume i = some t) :
    Inv services t := by
  unfold System.proxyResume at h
  split at h
  next event future hinv =>
    split at h
    next o ho =>
      cases h
      refine hi.setStatus i _ fun o' ho' => ?_
      cases ho'
      exact hi.futures.completed ho (hi.invocations i _ hinv).1
    next =>
      cases h
      exact hi.setStatus i _ fun o ho => nomatch ho
    next => cases h
  next => cases h

theorem Inv.proxyTimeout (hi : Inv services s) {i : ℕ} (h : s.proxyTimeout i = some t) :
    Inv services t := by
  unfold System.proxyTimeout at h
  split at h
  next =>
    cases h
    exact hi.setStatus i _ fun o ho => nomatch ho
  next => cases h

/-! ## The steps of the client actor -/

theorem Inv.arrive (hi : Inv services s) {k : ℕ} (h : s.arrive k = some t) : Inv services t := by
  obtain ⟨⟨env, rest⟩, hp, rfl⟩ := Option.map_eq_some_iff.mp h
  have hperm : (rest ++ (s.mailbox ++ [env]) ++ s.toServer).Perm s.envelopes := by
    refine List.Perm.append_right s.toServer ?_
    rw [← List.append_assoc]
    exact (List.perm_append_singleton env (rest ++ s.mailbox)).trans
      ((pick_perm hp).symm.append_right s.mailbox)
  exact
    { envelopes := fun e he => hi.envelopes e (hperm.mem_iff.mp he)
      client := hi.client
      replies := hi.replies
      futures := hi.futures
      invocations := hi.invocations
      executions := hi.executions
      once := ((hperm.map Envelope.call).append_right _).nodup_iff.mpr hi.once }

theorem Inv.clientReceive (hi : Inv services s) (h : s.clientReceive = some t) :
    Inv services t := by
  unfold System.clientReceive at h
  split at h
  next env rest hclient hmailbox =>
    cases h
    have hmem : env ∈ s.envelopes := by simp [System.envelopes, hmailbox]
    obtain ⟨hevent, hsender⟩ := hi.envelopes env hmem
    have hcall : ∀ {address call : ℕ}, s.callAt address = some call →
        (Ask.askers (Ask.fresh s.asks env.call))[address]? = some call :=
      fun h => askers_fresh_of_some _ h
    have hnew := askers_fresh_length s.asks env.call
    have hcalls : ((s.toClient ++ rest ++ { env with sender := s.asks.length } ::
        s.toServer).map Envelope.call).Perm (s.envelopes.map Envelope.call) := by
      simp only [System.envelopes, hmailbox, List.map_append, List.map_cons, List.append_assoc,
        List.cons_append]
      exact List.Perm.append_left _ List.perm_middle
    refine
      { envelopes := ?_
        client := ?_
        replies := ?_
        futures := hi.futures.fresh env.call
        invocations := ?_
        executions := hi.executions
        once := (hcalls.append_right _).nodup_iff.mpr hi.once }
    · intro e he
      rcases List.mem_append.mp he with he | he
      · have hold : e ∈ s.envelopes := by
          simp only [System.envelopes, hmailbox, List.mem_append, List.mem_cons] at he ⊢
          tauto
        exact ⟨(hi.envelopes e hold).1, hcall (hi.envelopes e hold).2⟩
      · rcases List.mem_cons.mp he with rfl | he
        · exact ⟨hevent, hnew⟩
        · have hold : e ∈ s.envelopes := List.mem_append_right _ he
          exact ⟨(hi.envelopes e hold).1, hcall (hi.envelopes e hold).2⟩
    · intro sender future h
      cases h
      exact ⟨env.call, hcall hsender, hnew⟩
    · intro r hr
      obtain ⟨call, h1, h2⟩ := hi.replies r hr
      exact ⟨call, hcall h1, h2⟩
    · intro i inv h
      obtain ⟨h1, h2⟩ := hi.invocations i inv h
      exact ⟨hcall h1, h2⟩
  next => cases h

theorem Inv.clientIdle (hi : Inv services s) : Inv services { s with client := .idle } :=
  { hi with client := fun _ _ h => nomatch h }

theorem Inv.clientResume (hi : Inv services s) (h : s.clientResume = some t) : Inv services t := by
  unfold System.clientResume at h
  split at h
  next => cases h
  next sender future hclient =>
    split at h
    next o ho =>
      cases h
      obtain ⟨call, hsender, hfuture⟩ := hi.client sender future hclient
      refine { hi.clientIdle with replies := ?_ }
      intro r hr
      rcases List.mem_cons.mp hr with rfl | hr
      · exact ⟨call, hsender, hi.futures.completed ho hfuture⟩
      · exact hi.replies r hr
    next =>
      cases h
      exact hi.clientIdle
    next => cases h

theorem Inv.clientTimeout (hi : Inv services s) (h : s.clientTimeout = some t) :
    Inv services t := by
  unfold System.clientTimeout at h
  split at h
  next => cases h
  next =>
    cases h
    exact hi.clientIdle

/-! ## The steps of the servers and of the network -/

theorem Inv.serve (hi : Inv services s) {k server : ℕ} {outcome : Outcome V}
    (h : s.serve services k server outcome = some t) : Inv services t := by
  obtain ⟨⟨env, rest⟩, hp, rfl⟩ := Option.map_eq_some_iff.mp h
  have hmem : env ∈ s.envelopes := List.mem_append_right _ (pick_mem hp)
  obtain ⟨hevent, hsender⟩ := hi.envelopes env hmem
  let x : Execution V := ⟨env.call, server, env.event, outcome⟩
  have hcalls : ((s.toClient ++ s.mailbox ++ rest).map Envelope.call ++
      env.call :: s.executions.map Execution.call).Perm s.traces := by
    have hold : (env.call :: (s.toClient ++ s.mailbox ++ rest).map Envelope.call).Perm
        (s.envelopes.map Envelope.call) := by
      simp only [System.envelopes, List.map_append]
      exact List.perm_middle.symm.trans (List.Perm.append_left _ (pick_map Envelope.call hp).symm)
    exact List.perm_middle.trans (hold.append_right _)
  refine
    { envelopes := ?_
      client := hi.client
      replies := ?_
      futures := hi.futures.mono fun _ _ hc => hc.cons x
      invocations := fun i inv h => ?_
      executions := ?_
      once := hcalls.nodup_iff.mpr hi.once }
  · intro e he
    refine hi.envelopes e ?_
    rcases List.mem_append.mp he with he | he
    · exact List.mem_append_left _ he
    · exact List.mem_append_right _ (pick_rest_mem hp he)
  · have hold : ∀ r ∈ s.replies, ∃ call, s.callAt r.1 = some call ∧
        Computed services (x :: s.executions) call r.2 := by
      intro r hr
      obtain ⟨call, h1, h2⟩ := hi.replies r hr
      exact ⟨call, h1, h2.cons x⟩
    intro r hr
    rcases List.mem_append.mp hr with hr | hr
    · cases hreply :
        ((RpcServerActor.new (services server)).onReceive env.event outcome).reply with
      | error e =>
        rw [hreply] at hr
        cases hr
      | ok o =>
        rw [hreply] at hr
        rw [List.mem_singleton.mp hr]
        exact ⟨env.call, hsender, x, List.mem_cons_self .., rfl, hreply⟩
    · exact hold r hr
  · obtain ⟨h1, h2⟩ := hi.invocations i inv h
    exact ⟨h1, fun o ho => (h2 o ho).cons x⟩
  · intro y hy
    rcases List.mem_cons.mp hy with rfl | hy
    · exact hevent
    · exact hi.executions y hy

theorem Inv.settle (hi : Inv services s) (address : ℕ) (f : Ask.Future (Obj V))
    (h : ∀ call o, s.callAt address = some call → f = .completed o →
      Computed services s.executions call o) :
    Inv services { s with asks := Ask.settle s.asks address f } := by
  have hcall : System.callAt { s with asks := Ask.settle s.asks address f } = s.callAt := by
    funext a
    exact congrArg (fun l => l[a]?) (Ask.askers_settle s.asks address f)
  exact
    { envelopes := hcall ▸ hi.envelopes
      client := hcall ▸ hi.client
      replies := hcall ▸ hi.replies
      futures := hi.futures.settle h
      invocations := hcall ▸ hi.invocations
      executions := hi.executions
      once := hi.once }

theorem Inv.deliverReply (hi : Inv services s) {k : ℕ} (h : s.deliverReply k = some t) :
    Inv services t := by
  obtain ⟨⟨r, rest⟩, hp, rfl⟩ := Option.map_eq_some_iff.mp h
  obtain ⟨call, hcall, hcomputed⟩ := hi.replies r (pick_mem hp)
  have hsettled := hi.settle r.1 (.completed r.2) fun call' o hc ho => by
    cases ho
    rw [hcall] at hc
    cases hc
    exact hcomputed
  exact { hsettled with replies := fun r' hr => hsettled.replies r' (pick_rest_mem hp hr) }

theorem Inv.lose (hi : Inv services s) {toClient toServer : List (Envelope V)}
    (h1 : toClient.Sublist s.toClient) (h2 : toServer.Sublist s.toServer) :
    Inv services { s with toClient := toClient, toServer := toServer } := by
  have hsub : (toClient ++ s.mailbox ++ toServer).Sublist s.envelopes :=
    (h1.append (List.Sublist.refl s.mailbox)).append h2
  exact
    { hi with
      envelopes := fun e he => hi.envelopes e (hsub.subset he)
      once := hi.once.sublist ((hsub.map Envelope.call).append (List.Sublist.refl _)) }

theorem inv_step (s : System V) (e : Label V) (t : System V) (hi : Inv services s)
    (h : step services s e = some t) : Inv services t := by
  cases e with
  | invoke clz method args =>
    cases h
    exact hi.invoke clz method args
  | arrive k => exact hi.arrive h
  | clientReceive => exact hi.clientReceive h
  | clientResume => exact hi.clientResume h
  | clientTimeout => exact hi.clientTimeout h
  | serve k server outcome => exact hi.serve h
  | deliverReply k => exact hi.deliverReply h
  | expire address =>
    cases h
    exact hi.settle address .failed fun call o _ ho => nomatch ho
  | proxyResume i => exact hi.proxyResume h
  | proxyTimeout i => exact hi.proxyTimeout h
  | loseToClient k =>
    obtain ⟨⟨env, rest⟩, hp, rfl⟩ := Option.map_eq_some_iff.mp h
    exact hi.lose (pick_sublist hp) (List.Sublist.refl _)
  | loseToServer k =>
    obtain ⟨⟨env, rest⟩, hp, rfl⟩ := Option.map_eq_some_iff.mp h
    exact hi.lose (List.Sublist.refl _) (pick_sublist hp)
  | loseReply k =>
    obtain ⟨⟨reply, rest⟩, hp, rfl⟩ := Option.map_eq_some_iff.mp h
    exact { hi with replies := fun r hr => hi.replies r (pick_rest_mem hp hr) }

theorem inv_reachable (h : Reaches services s) : Inv services s :=
  h.invariant inv_initial fun s e t _ hi ht => inv_step s e t hi ht

/-! ## Correlation -/

/-- Each value returned is what a server computed for that very call's message, and no message is
executed twice. -/
structure Correlated (services : ℕ → Services V) (s : System V) : Prop where
  returned : ∀ i inv o, s.invocations[i]? = some inv → inv.status = .returned o →
    ∃ x ∈ s.executions, x.call = i ∧ x.event = inv.event ∧
      ((RpcServerActor.new (services x.server)).onReceive x.event x.outcome).reply = .ok o
  executed_once : ∀ i, (s.executions.filter fun x => x.call = i).length ≤ 1

/-- No `Execution.call` occurs twice. -/
theorem Inv.length_executions_le {services : ℕ → Services V} {s : System V}
    (hi : Inv services s) (i : ℕ) : (s.executions.filter fun x => x.call = i).length ≤ 1 := by
  have hnodup : (s.executions.map Execution.call).Nodup := (List.nodup_append.mp hi.once).2.1
  have hcount := List.nodup_iff_count_le_one.mp hnodup i
  rw [List.count, List.countP_map, List.countP_eq_length_filter] at hcount
  exact hcount

theorem calls_correlated (services : ℕ → Services V) (s : System V) (h : Reaches services s) :
    Correlated services s := by
  have hi := inv_reachable h
  refine ⟨fun i inv o hinv ho => ?_, hi.length_executions_le⟩
  obtain ⟨x, hx, hcall, hreply⟩ := (hi.invocations i inv hinv).2 o ho
  have hevent := hi.executions x hx
  rw [hcall, System.events, List.getElem?_map, hinv] at hevent
  exact ⟨x, hx, hcall, (Option.some.inj hevent).symm, hreply⟩

end Correlation

/-! ## A late reply -/

def sayHello : Method := ⟨"sayHello", [.reference "java.lang.String"]⟩

def exampleInterface : JavaClass := ⟨"ExampleInterface", [sayHello]⟩

def string (contents : String) : Obj String := ⟨⟨"java.lang.String", []⟩, contents⟩

def exampleServices : ℕ → Services String := fun _ =>
  Tally.put ∅ exampleInterface (some ⟨⟨"ExampleInterfaceImpl", [sayHello]⟩, ""⟩)

/-- The first call times out while the server answers it, and the second one is answered. -/
def lateReply : List (Label String) :=
  [.invoke exampleInterface sayHello [some (string "a")],
    .invoke exampleInterface sayHello [some (string "b")],
    .arrive 1, .arrive 0, .clientReceive, .expire 0, .proxyResume 0, .clientTimeout,
    .serve 0 0 (.returns (some (string "Hello a"))), .clientReceive, .deliverReply 0,
    .serve 0 1 (.returns (some (string "Hello b"))), .deliverReply 0, .clientResume,
    .deliverReply 0, .proxyResume 1]

theorem calls_correlated_late_reply :
    ∃ s, Transition.run (step exampleServices) .initial lateReply = some s ∧
      s.invocations.map Invocation.status = [.thrown, .returned (string "Hello b")] ∧
      Correlated exampleServices s := by
  have hrun : (Transition.run (step exampleServices) .initial lateReply).map
      (fun s => s.invocations.map Invocation.status) =
        some [.thrown, .returned (string "Hello b")] := by decide
  obtain ⟨s, hs, hstatus⟩ := Option.map_eq_some_iff.mp hrun
  exact ⟨s, hs, hstatus, calls_correlated exampleServices s ⟨lateReply, hs⟩⟩

end SbtExample.Rpc
