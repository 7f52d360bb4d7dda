import SbtExample.Foundations.Transition
import SbtExample.Rpc.Replies

/-! # Proxies and their handlers (`RpcBeanProxy.proxy`, `RpcBeanProxy.invoke`)

`proxy` keeps its arguments in two fields of the invocation handler and makes a proxy object that
refers to the handler; an invocation of the proxy reads the fields as they are by then. Handlers are
numbered, and any of them may be given to any number of calls.
-/
set_option autoImplicit false
set_option maxHeartbeats 250000

namespace SbtExample.Rpc.Proxies
open Transition

section Proxies
variable {V Actor : Type}

/-! ## Handlers and proxies -/

/-- The fields of a `RpcBeanProxy`. -/
structure Handler (Actor : Type) where
  rpcClientServer : Option Actor
  clz : Option JavaClass

/-- The `ask` that `invoke` makes: whom, and with which message. -/
structure Asked (V Actor : Type) where
  receiver : Option Actor
  message : CallMethod V

/-- `invoke` up to the `ask`: `clz.getName()` throws on `null`. -/
def Handler.invoke (handler : Handler Actor) (method : Method) (args : List (Ref V)) :
    Option (Asked V Actor) :=
  handler.clz.map fun clz => ⟨handler.rpcClientServer, RpcBeanProxy.callMethod clz method args⟩

/-- A proxy object: its handler, and the arguments of the call that returned it. -/
structure Proxy (Actor : Type) where
  handler : ℕ
  rpcClientServer : Option Actor
  clz : JavaClass

structure State (V Actor : Type) where
  handlers : ℕ → Handler Actor
  proxies : List (Proxy Actor)
  asked : List (Proxy Actor × Asked V Actor)

def State.initial : State V Actor := ⟨fun _ => ⟨none, none⟩, [], []⟩

def State.invoke (s : State V Actor) (p : Proxy Actor) (method : Method) (args : List (Ref V)) :
    Option (Asked V Actor) :=
  (s.handlers p.handler).invoke method args

inductive Event (V Actor : Type)
  | proxy (handler : ℕ) (rpcClientServer : Option Actor) (clz : Option JavaClass)
  | invoke (proxy : ℕ) (method : Method) (args : List (Ref V))

/-- What `proxy` returns, when it does: `clz.getClassLoader()` throws on `null`, and
`newProxyInstance` on a class that is not an interface. -/
def newProxy (isInterface : JavaClass → Bool) (handler : ℕ) (rpcClientServer : Option Actor)
    (clz : Option JavaClass) : List (Proxy Actor) :=
  match clz with
  | none => []
  | some clz => if isInterface clz then [⟨handler, rpcClientServer, clz⟩] else []

/-- `proxy` sets the fields before it can throw. -/
def step (isInterface : JavaClass → Bool) (s : State V Actor) :
    Event V Actor → Option (State V Actor)
  | .proxy handler rpcClientServer clz => some
      { s with
        handlers := Function.update s.handlers handler ⟨rpcClientServer, clz⟩
        proxies := s.proxies ++ newProxy isInterface handler rpcClientServer clz }
  | .invoke proxy method args => s.proxies[proxy]?.map fun p =>
      { s with asked := s.asked ++ ((s.invoke p method args).map fun a => (p, a)).toList }

/-! ## Independence -/

/-- The message goes to the reference that the proxy was made with, and carries the name of its
interface. -/
def Own (p : Proxy Actor) (a : Asked V Actor) : Prop :=
  a.receiver = p.rpcClientServer ∧ a.message.beanName = p.clz.name

/-- Every message sent so far was the proxy's own, and so is every one that would be sent next. -/
structure Independent (s : State V Actor) : Prop where
  asked : ∀ x ∈ s.asked, Own x.1 x.2
  next : ∀ p ∈ s.proxies, ∀ method args a, s.invoke p method args = some a → Own p a

/-- Every proxy that the handler has already was made with the same reference and an interface of
the same name. -/
def Agrees (s : State V Actor) : Event V Actor → Prop
  | .proxy handler rpcClientServer (some clz) => ∀ p ∈ s.proxies, p.handler = handler →
      p.rpcClientServer = rpcClientServer ∧ p.clz.name = clz.name
  | _ => True

theorem mem_newProxy {isInterface : JavaClass → Bool} {handler : ℕ}
    {rpcClientServer : Option Actor} {clz : Option JavaClass} {p : Proxy Actor}
    (h : p ∈ newProxy isInterface handler rpcClientServer clz) :
    p.handler = handler ∧ p.rpcClientServer = rpcClientServer ∧ clz = some p.clz := by
  cases clz with
  | none => cases h
  | some clz =>
    simp only [newProxy] at h
    split at h
    next =>
      cases List.mem_singleton.mp h
      exact ⟨rfl, rfl, rfl⟩
    next => cases h

theorem invoke_eq_some {handler : Handler Actor} {method : Method} {args : List (Ref V)}
    {a : Asked V Actor} (h : handler.invoke method args = some a) :
    ∃ clz, handler.clz = some clz ∧ a.receiver = handler.rpcClientServer ∧
      a.message.beanName = clz.name := by
  obtain ⟨clz, hclz, rfl⟩ := Option.map_eq_some_iff.mp h
  exact ⟨clz, hclz, rfl, rfl⟩

/-- A proxy on a handler with new fields sends its own messages when the fields agree with it. -/
theorem own_of_agree {p : Proxy Actor} {rpcClientServer : Option Actor} {clz : JavaClass}
    {method : Method} {args : List (Ref V)} {a : Asked V Actor}
    (hagree : p.rpcClientServer = rpcClientServer ∧ p.clz.name = clz.name)
    (h : (⟨rpcClientServer, some clz⟩ : Handler Actor).invoke method args = some a) : Own p a := by
  obtain ⟨clz', hclz, hreceiver, hname⟩ := invoke_eq_some h
  cases hclz
  exact ⟨hreceiver.trans hagree.1.symm, hname.trans hagree.2.symm⟩

variable {isInterface : JavaClass → Bool}

theorem proxy_independent {s : State V Actor} {handler : ℕ} {rpcClientServer : Option Actor}
    {clz : Option JavaClass} {t : State V Actor} (hs : Independent s)
    (h : step isInterface s (.proxy handler rpcClientServer clz) = some t) :
    Independent t ↔ Agrees s (.proxy handler rpcClientServer clz) := by
  cases h
  constructor
  · intro ht
    cases clz with
    | none => trivial
    | some clz =>
      rintro p hp rfl
      have hinvoke := ht.next p (List.mem_append_left _ hp) ⟨"", []⟩ []
        ⟨rpcClientServer, RpcBeanProxy.callMethod clz ⟨"", []⟩ []⟩
        (by simp [State.invoke, Handler.invoke])
      exact ⟨hinvoke.1.symm, hinvoke.2.symm⟩
  · intro hagrees
    refine ⟨hs.asked, fun p hp method args a ha => ?_⟩
    by_cases hhandler : p.handler = handler
    · simp only [State.invoke, hhandler, Function.update_self] at ha
      obtain ⟨clz', hclz, -⟩ := invoke_eq_some ha
      cases hclz
      refine own_of_agree ?_ ha
      rcases List.mem_append.mp hp with hp | hp
      · exact hagrees p hp hhandler
      · obtain ⟨-, hreference, hclz⟩ := mem_newProxy hp
        cases hclz
        exact ⟨hreference, rfl⟩
    · simp only [State.invoke, Function.update_of_ne hhandler] at ha
      rcases List.mem_append.mp hp with hp | hp
      · exact hs.next p hp method args a ha
      · exact absurd (mem_newProxy hp).1 hhandler

theorem invoke_independent {s t : State V Actor} {i : ℕ} {method : Method} {args : List (Ref V)}
    (hs : Independent s) (h : step isInterface s (.invoke i method args) = some t) :
    Independent t := by
  obtain ⟨p, hp, rfl⟩ := Option.map_eq_some_iff.mp h
  refine ⟨fun x hx => ?_, hs.next⟩
  rcases List.mem_append.mp hx with hx | hx
  · exact hs.asked x hx
  · obtain ⟨a, ha, rfl⟩ := Option.map_eq_some_iff.mp (Option.mem_toList.mp hx)
    exact hs.next p (List.mem_of_getElem? hp) method args a ha

theorem step_independent (s : State V Actor) (e : Event V Actor) (t : State V Actor)
    (hs : Independent s) (h : step isInterface s e = some t) : Independent t ↔ Agrees s e := by
  cases e with
  | proxy handler rpcClientServer clz => exact proxy_independent hs h
  | invoke i method args => exact iff_of_true (invoke_independent hs h) trivial

theorem initial_independent : Independent (State.initial : State V Actor) := ⟨nofun, nofun⟩

/-! ## One handler for each proxy -/

def Event.handler? : Event V Actor → Option ℕ
  | .proxy handler _ _ => some handler
  | .invoke _ _ _ => none

/-- `AkkaRpcClient.getBean`, which makes a new handler for the proxy. -/
def getBean (handler : ℕ) (clientServer : Actor) (clz : JavaClass) : Event V Actor :=
  .proxy handler (some clientServer) (some clz)

theorem step_handlers {s t : State V Actor} {e : Event V Actor}
    (h : step isInterface s e = some t) (p : Proxy Actor) (hp : p ∈ t.proxies) :
    p ∈ s.proxies ∨ e.handler? = some p.handler := by
  cases e with
  | proxy handler rpcClientServer clz =>
    cases h
    rcases List.mem_append.mp hp with hp | hp
    · exact Or.inl hp
    · exact Or.inr (congrArg some (mem_newProxy hp).1.symm)
  | invoke i method args =>
    obtain ⟨q, -, rfl⟩ := Option.map_eq_some_iff.mp h
    exact Or.inl hp

theorem handler_mem {es : List (Event V Actor)} {s : State V Actor}
    (h : run (step isInterface) .initial es = some s) (p : Proxy Actor) (hp : p ∈ s.proxies) :
    p.handler ∈ es.filterMap Event.handler? := by
  refine run_induction (P := fun es s => ∀ p ∈ s.proxies, p.handler ∈ es.filterMap Event.handler?)
    nofun ?_ es s h p hp
  intro es s e t _ ih ht p hp
  rw [List.filterMap_append, List.mem_append]
  rcases step_handlers ht p hp with hp | he
  · exact Or.inl (ih p hp)
  · exact Or.inr (List.mem_filterMap.mpr ⟨e, List.mem_singleton_self e, he⟩)

/-- Proxies made on different handlers, as by `getBean`, are independent. -/
theorem independent_of_nodup (isInterface : JavaClass → Bool) (es : List (Event V Actor))
    (s : State V Actor) (h : run (step isInterface) .initial es = some s)
    (hnodup : (es.filterMap Event.handler?).Nodup) : Independent s := by
  revert hnodup
  refine run_induction (P := fun es s => (es.filterMap Event.handler?).Nodup → Independent s)
    (fun _ => initial_independent) ?_ es s h
  intro es s e t hr ih ht hnodup
  rw [List.filterMap_append, List.nodup_append] at hnodup
  obtain ⟨hnodup, -, hdisjoint⟩ := hnodup
  refine (step_independent s e t (ih hnodup) ht).mpr ?_
  cases e with
  | invoke i method args => trivial
  | proxy handler rpcClientServer clz =>
    cases clz with
    | none => trivial
    | some clz =>
      intro p hp hhandler
      exact absurd hhandler (hdisjoint _ (handler_mem hr p hp) handler (List.mem_singleton_self _))

/-! ## Any handlers -/

/-- The proxies are independent in every state of a run exactly when no call of `proxy` in it gives
a handler that has proxies another reference or another interface. -/
theorem independent_iff (isInterface : JavaClass → Bool) (es : List (Event V Actor))
    (s : State V Actor) (h : run (step isInterface) .initial es = some s) :
    Throughout (step isInterface) Independent .initial es ↔
      Along (step isInterface) Agrees .initial es :=
  throughout_iff_along initial_independent step_independent es s h

end Proxies

def cache : JavaClass := ⟨"Cache", [clear]⟩

/-- A handler for each proxy, and one handler for both. -/
def apart : List (Event String ℕ) :=
  [getBean 0 1 store, getBean 1 2 cache, .invoke 0 clear []]

def shared : List (Event String ℕ) :=
  [getBean 0 1 store, getBean 0 2 cache, .invoke 0 clear []]

theorem independent_iff_apart : Throughout (step fun _ => true) Independent .initial apart := by
  refine (independent_iff (fun _ => true) apart _ rfl).mpr ?_
  refine ⟨nofun, fun s hs => ?_⟩
  cases hs
  refine ⟨fun p hp hhandler => ?_, fun s hs => ⟨trivial, fun _ _ => trivial⟩⟩
  cases List.mem_singleton.mp hp
  cases hhandler

/-- The invocation of the first proxy goes to the second one's reference. -/
theorem shared_handler_redirects :
    ¬ ∀ (isInterface : JavaClass → Bool) (es : List (Event String ℕ)) (s : State String ℕ),
      run (step isInterface) .initial es = some s →
        Throughout (step isInterface) Independent .initial es := by
  intro h
  have hall := h (fun _ => true) shared _ rfl shared _ (List.prefix_refl _) rfl
  have hown := hall.asked _ (List.mem_singleton_self _)
  cases hown.1

end SbtExample.Rpc.Proxies
