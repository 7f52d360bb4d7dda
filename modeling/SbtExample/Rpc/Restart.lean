import SbtExample.Foundations.Transition
import SbtExample.Rpc.Replies

/-! # Restarts of the server actor (`AkkaRpcServer.start`, `RpcServerActor`)

`start` gives the map `services` itself to the `Props` of the actor, and the constructor copies it.
The map stays open to changes through `getServices`; an exception that escapes `onReceive` restarts
the actor, which copies the map again as it is then. One operation of the map is one step.
-/
set_option autoImplicit false
set_option maxHeartbeats 250000

namespace SbtExample.Rpc.Restart
open Tally Transition

section Restart
variable {V : Type}

/-! ## The map `services` -/

/-- The `HashMap`: its entries under interfaces, and the one under the key `null`. -/
structure ServiceMap (V : Type) where
  services : Services V
  underNull : Option (Ref V)

def ServiceMap.put (m : ServiceMap V) (inface : Option JavaClass) (bean : Ref V) : ServiceMap V :=
  match inface with
  | none => { m with underNull := some bean }
  | some inface => { m with services := Tally.put m.services inface bean }

def ServiceMap.remove (m : ServiceMap V) (inface : Option JavaClass) : ServiceMap V :=
  match inface with
  | none => { m with underNull := none }
  | some inface => { m with services := m.services.erase inface }

/-- The constructor of `RpcServerActor`: `inface.getName()` throws on the key `null`. -/
def ServiceMap.construct (m : ServiceMap V) : Option (RpcServerActor V) :=
  match m.underNull with
  | some _ => none
  | none => some (.new m.services)

/-- The bean that the map holds for an interface of this name, the last one in the order of
iteration; none at all when the map has the key `null`. -/
def ServiceMap.registered (m : ServiceMap V) (name : String) : Option (Ref V) :=
  match m.underNull with
  | some _ => none
  | none => ((toList m.services).reverse.find? fun e => decide (e.1.name = name)).map Prod.snd

/-! ## The server -/

/-- `actor` is `none` when its constructor has thrown: Akka stops it. -/
structure Server (V : Type) where
  services : ServiceMap V
  actor : Option (RpcServerActor V)

def Server.start (services : ServiceMap V) : Server V := ⟨services, services.construct⟩

/-- What a call is resolved against: the bean under each name, `none` for an absent name. -/
def Server.serves (s : Server V) (name : String) : Option (Ref V) :=
  s.actor.bind fun a => a.proxyBeans.lookup name

/-- A call to the actor, and the operations on the map of `getServices`. -/
inductive Event (V : Type)
  | call (d : Delivery V)
  | put (inface : Option JavaClass) (bean : Ref V)
  | remove (inface : Option JavaClass)

/-- One `onReceive`; a stopped actor gets no messages. -/
def Server.receive (s : Server V) (d : Delivery V) : Server V :=
  match s.actor with
  | none => s
  | some a =>
    match (a.onReceive d.event d.outcome).reply with
    | .error _ => { s with actor := s.services.construct }
    | .ok _ => s

def step (s : Server V) : Event V → Option (Server V)
  | .call d => some (s.receive d)
  | .put inface bean => some { s with services := s.services.put inface bean }
  | .remove inface => some { s with services := s.services.remove inface }

/-- The same when no call fails: the actor is never restarted. -/
def stepUnfailed (s : Server V) : Event V → Option (Server V)
  | .call _ => some s
  | .put inface bean => some { s with services := s.services.put inface bean }
  | .remove inface => some { s with services := s.services.remove inface }

/-- After every part of the interleaving, calls are resolved against the same names and beans as if
no call had failed. -/
def Unaffected (services : ServiceMap V) (es : List (Event V)) : Prop :=
  ∀ fs s u, fs <+: es → run step (.start services) fs = some s →
    run stepUnfailed (.start services) fs = some u → s.serves = u.serves

def Server.Fails (s : Server V) (d : Delivery V) : Prop :=
  ∃ a e, s.actor = some a ∧ (a.onReceive d.event d.outcome).reply = .error e

/-- The step is not a failing call, or the map registers the same beans as `services`. -/
def Unmoved (services : ServiceMap V) (s : Server V) (e : Event V) : Prop :=
  ∀ d, e = .call d → s.Fails d → s.services.registered = services.registered

/-! ## What the constructor copies -/

theorem lookup_foldl_put (l : List (JavaClass × Ref V)) (m : Table String (Ref V))
    (name : String) :
    (l.foldl (fun m e => Tally.put m e.1.name e.2) m).lookup name =
      ((l.reverse.find? fun e => decide (e.1.name = name)).map Prod.snd).or (m.lookup name) := by
  induction l generalizing m with
  | nil => rfl
  | cons e l ih =>
    rw [List.foldl_cons, ih, lookup_put, List.reverse_cons, List.find?_append]
    cases l.reverse.find? fun e => decide (e.1.name = name) with
    | some e' => rfl
    | none =>
      by_cases he : name = e.1.name
      · simp [he]
      · simp [he, Ne.symm he]

theorem construct_serves (m : ServiceMap V) (name : String) :
    (m.construct.bind fun a => a.proxyBeans.lookup name) = m.registered name := by
  unfold ServiceMap.construct ServiceMap.registered
  cases m.underNull with
  | some bean => rfl
  | none =>
    apply (lookup_foldl_put (toList m.services) ∅ name).trans
    rw [AList.lookup_empty, Option.or_none]

theorem start_serves (services : ServiceMap V) :
    (Server.start services).serves = services.registered :=
  funext (construct_serves services)

/-! ## Steps -/

/-- What a call does: a failing one has the actor constructed again from the map as it is. -/
theorem receive_cases (s : Server V) (d : Delivery V) :
    (s.Fails d ∧ s.receive d = { s with actor := s.services.construct }) ∨
      (¬ s.Fails d ∧ s.receive d = s) := by
  unfold Server.receive Server.Fails
  cases ha : s.actor with
  | none => simp
  | some a =>
    cases hr : (a.onReceive d.event d.outcome).reply with
    | error e => exact Or.inl ⟨⟨a, e, rfl, hr⟩, by simp [hr]⟩
    | ok o => exact Or.inr ⟨by simp [hr], by simp [hr]⟩

/-- With no `null` among the keys a call restarts the actor as `serve` does. -/
theorem receive_actor {s : Server V} {a : RpcServerActor V} (ha : s.actor = some a)
    (hnull : s.services.underNull = none) (d : Delivery V) :
    (s.receive d).actor = some (serve s.services.services a d).2 := by
  unfold Server.receive serve
  rw [ha]
  cases hr : (a.onReceive d.event d.outcome).reply with
  | error e => simp [hr, ServiceMap.construct, hnull]
  | ok o => simp [hr, ha]

theorem step_serves {services : ServiceMap V} (s : Server V) (e : Event V) (t : Server V)
    (hs : s.serves = services.registered) (h : step s e = some t) :
    t.serves = services.registered ↔ Unmoved services s e := by
  cases e with
  | call d =>
    cases h
    rcases receive_cases s d with ⟨hf, hr⟩ | ⟨hf, hr⟩
    · have hserves : (s.receive d).serves = s.services.registered := by
        rw [hr]
        exact funext (construct_serves s.services)
      rw [hserves]
      constructor
      · intro heq d' _ _
        exact heq
      · intro hq
        exact hq d rfl hf
    · rw [hr]
      refine iff_of_true hs fun d' hd hf' => ?_
      cases hd
      exact absurd hf' hf
  | put inface bean =>
    cases h
    exact iff_of_true hs nofun
  | remove inface =>
    cases h
    exact iff_of_true hs nofun

theorem step_total (s : Server V) (e : Event V) : ∃ t, step s e = some t := by
  cases e <;> exact ⟨_, rfl⟩

theorem stepUnfailed_total (s : Server V) (e : Event V) : ∃ t, stepUnfailed s e = some t := by
  cases e <;> exact ⟨_, rfl⟩

theorem stepUnfailed_serves {s t : Server V} {e : Event V} (h : stepUnfailed s e = some t) :
    t.serves = s.serves := by
  cases e <;> cases h <;> rfl

/-! ## Runs -/

theorem runUnfailed_serves {s u : Server V} {es : List (Event V)}
    (h : run stepUnfailed s es = some u) : u.serves = s.serves :=
  run_induction (P := fun _ u => u.serves = s.serves) rfl
    (fun _ _ _ _ _ hs ht => (stepUnfailed_serves ht).trans hs) es u h

theorem unaffected_iff_throughout (services : ServiceMap V) (es : List (Event V)) :
    Unaffected services es ↔
      Throughout step (fun s => s.serves = services.registered) (.start services) es := by
  constructor
  · intro h fs s hfs hs
    obtain ⟨u, hu⟩ := exists_run stepUnfailed_total (.start services) fs
    rw [h fs s u hfs hs hu, runUnfailed_serves hu, start_serves]
  · intro h fs s u hfs hs hu
    rw [h fs s hfs hs, runUnfailed_serves hu, start_serves]

/-- Failing calls change nothing exactly when each of them comes while the map registers the same
beans under the same names as when the actor was created. -/
theorem unaffected_iff (services : ServiceMap V) (es : List (Event V)) :
    Unaffected services es ↔ Along step (Unmoved services) (.start services) es := by
  rw [unaffected_iff_throughout]
  obtain ⟨s, hs⟩ := exists_run step_total (.start services) es
  exact throughout_iff_along (P := fun s => s.serves = services.registered)
    (start_serves services) step_serves es s hs

end Restart

/-! ## A service removed after the start -/

/-- The bean stays served after its removal until a call of a `void` method, which fails after the
invocation. -/
theorem failing_call_drops_bean :
    ¬ ∀ (services : ServiceMap String) (es : List (Event String)), Unaffected services es := by
  intro h
  have hserves := h ⟨Tally.put ∅ store (some storeBean), none⟩
    [.remove (some store), .call ⟨0, RpcBeanProxy.callMethod store clear [], .returns none⟩]
    _ _ _ (List.prefix_refl _) rfl rfl
  have hbean : none = some (some storeBean) := congrFun hserves "Store"
  cases hbean

end SbtExample.Rpc.Restart
