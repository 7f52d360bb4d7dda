import Mathlib

/-! # The resource registry of the web socket server (`WSocketServer.scala`)

Reactors are registered for resource descriptors, and each callback of the server goes to the
reactor of its socket. Strings and sockets may be `null`, which is `none`. Actors, buffers,
handshakes and exceptions are only passed on.
-/
set_option autoImplicit false
set_option maxHeartbeats 250000

namespace SbtExample.Websocket

abbrev Descriptor : Type := Option String

structure WebSocket where
  id : ℕ
  getResourceDescriptor : Descriptor
  deriving DecidableEq

section Server
variable {ActorRef ByteBuffer ClientHandshake Exception : Type}

inductive WSocketServerMessage (ByteBuffer ClientHandshake Exception : Type)
  | message (ws : WebSocket) (msg : Option String)
  | bufferMessage (ws : WebSocket) (buffer : ByteBuffer)
  | opened (ws : WebSocket) (hs : ClientHandshake)
  | closed (ws : WebSocket) (code : Int32) (reason : Option String) (external : Bool)
  | error (ws : WebSocket) (ex : Exception)
  deriving DecidableEq

inductive Effect (ActorRef ByteBuffer ClientHandshake Exception : Type)
  | tell (actor : ActorRef) (m : WSocketServerMessage ByteBuffer ClientHandshake Exception)
  | close (ws : WebSocket) (code : Int32)
  deriving DecidableEq

inductive Throwable
  | noSuchElement
  deriving DecidableEq

/-- `CloseFrame.REFUSE` of the web socket library. -/
def refuse : Int32 := 1003

structure WSocketServer (ActorRef : Type) where
  reactors : AList fun _ : Descriptor => ActorRef

def WSocketServer.new : WSocketServer ActorRef := ⟨∅⟩

def WSocketServer.forResource (s : WSocketServer ActorRef) (descriptor : Descriptor)
    (reactor : Option ActorRef) : WSocketServer ActorRef :=
  match reactor with
  | some actor => ⟨s.reactors.insert descriptor actor⟩
  | none => ⟨s.reactors.erase descriptor⟩

/-! ## The callbacks -/

/-- The body that all the callbacks but `onOpen` have. -/
def WSocketServer.dispatch (s : WSocketServer ActorRef) (ws : Option WebSocket)
    (m : WebSocket → WSocketServerMessage ByteBuffer ClientHandshake Exception) :
    Except Throwable (List (Effect ActorRef ByteBuffer ClientHandshake Exception)) :=
  match ws with
  | none => .ok []
  | some ws =>
    match s.reactors.lookup ws.getResourceDescriptor with
    | some actor => .ok [.tell actor (m ws)]
    | none => .ok [.close ws refuse]

def WSocketServer.onMessage (s : WSocketServer ActorRef) (ws : Option WebSocket)
    (msg : Option String) :
    Except Throwable (List (Effect ActorRef ByteBuffer ClientHandshake Exception)) :=
  s.dispatch ws fun ws => .message ws msg

/-- The overload of `onMessage` for binary messages. -/
def WSocketServer.onBufferMessage (s : WSocketServer ActorRef) (ws : Option WebSocket)
    (buffer : ByteBuffer) :
    Except Throwable (List (Effect ActorRef ByteBuffer ClientHandshake Exception)) :=
  s.dispatch ws fun ws => .bufferMessage ws buffer

/-- `actor.get` on the looked-up option. -/
def WSocketServer.onOpen (s : WSocketServer ActorRef) (ws : Option WebSocket)
    (hs : ClientHandshake) :
    Except Throwable (List (Effect ActorRef ByteBuffer ClientHandshake Exception)) :=
  match ws with
  | none => .ok []
  | some ws =>
    match s.reactors.lookup ws.getResourceDescriptor with
    | some actor => .ok [.tell actor (.opened ws hs)]
    | none => .error .noSuchElement

def WSocketServer.onClose (s : WSocketServer ActorRef) (ws : Option WebSocket) (code : Int32)
    (reason : Option String) (external : Bool) :
    Except Throwable (List (Effect ActorRef ByteBuffer ClientHandshake Exception)) :=
  s.dispatch ws fun ws => .closed ws code reason external

def WSocketServer.onError (s : WSocketServer ActorRef) (ws : Option WebSocket) (ex : Exception) :
    Except Throwable (List (Effect ActorRef ByteBuffer ClientHandshake Exception)) :=
  s.dispatch ws fun ws => .error ws ex

/-- One of the five callbacks, with its arguments behind the socket. -/
inductive Callback (ByteBuffer ClientHandshake Exception : Type)
  | onMessage (msg : Option String)
  | onBufferMessage (buffer : ByteBuffer)
  | onOpen (hs : ClientHandshake)
  | onClose (code : Int32) (reason : Option String) (external : Bool)
  | onError (ex : Exception)

def WSocketServer.callback (s : WSocketServer ActorRef) (ws : Option WebSocket) :
    Callback ByteBuffer ClientHandshake Exception →
      Except Throwable (List (Effect ActorRef ByteBuffer ClientHandshake Exception))
  | .onMessage msg => s.onMessage ws msg
  | .onBufferMessage buffer => s.onBufferMessage ws buffer
  | .onOpen hs => s.onOpen ws hs
  | .onClose code reason external => s.onClose ws code reason external
  | .onError ex => s.onError ws ex

/-! ## The registry -/

/-- The server after the calls of `forResource`, first call first. -/
def register (calls : List (Descriptor × Option ActorRef)) : WSocketServer ActorRef :=
  calls.foldl (fun s call => s.forResource call.1 call.2) .new

/-- The reactor of the last call for the descriptor; `none` also when there was no such call. -/
def lastReactor (calls : List (Descriptor × Option ActorRef)) (descriptor : Descriptor) :
    Option ActorRef :=
  (calls.reverse.find? fun call => decide (call.1 = descriptor)).bind Prod.snd

theorem lookup_forResource (s : WSocketServer ActorRef) (descriptor key : Descriptor)
    (reactor : Option ActorRef) :
    (s.forResource descriptor reactor).reactors.lookup key =
      if descriptor = key then reactor else s.reactors.lookup key := by
  by_cases h : descriptor = key
  · subst h
    rw [if_pos rfl]
    cases reactor with
    | none => exact AList.lookup_erase descriptor s.reactors
    | some actor => exact AList.lookup_insert s.reactors
  · rw [if_neg h]
    cases reactor with
    | none => exact AList.lookup_erase_ne (Ne.symm h)
    | some actor => exact AList.lookup_insert_ne (Ne.symm h)

theorem lookup_register (calls : List (Descriptor × Option ActorRef)) (key : Descriptor) :
    (register calls).reactors.lookup key = lastReactor calls key := by
  induction calls using List.reverseRecOn with
  | nil => rfl
  | append_singleton calls call ih =>
    have hregister : register (calls ++ [call]) =
        (register calls).forResource call.1 call.2 := by
      rw [register, List.foldl_append]
      rfl
    rw [hregister, lookup_forResource, ih, lastReactor, lastReactor, List.reverse_append,
      List.reverse_singleton, List.singleton_append, List.find?_cons]
    by_cases h : call.1 = key
    · simp [h]
    · simp [h]

/-! ## What a callback owes -/

def Callback.message (ws : WebSocket) : Callback ByteBuffer ClientHandshake Exception →
    WSocketServerMessage ByteBuffer ClientHandshake Exception
  | .onMessage msg => .message ws msg
  | .onBufferMessage buffer => .bufferMessage ws buffer
  | .onOpen hs => .opened ws hs
  | .onClose code reason external => .closed ws code reason external
  | .onError ex => .error ws ex

/-- One message with the callback's arguments to the registered reactor, and nothing else; without
a reactor the socket is refused, and nothing else. No exception escapes in either case. -/
def Dispatches (calls : List (Descriptor × Option ActorRef)) (ws : WebSocket)
    (c : Callback ByteBuffer ClientHandshake Exception) : Prop :=
  (register calls).callback (some ws) c = .ok
    (match lastReactor calls ws.getResourceDescriptor with
    | some actor => [.tell actor (c.message ws)]
    | none => [.close ws refuse])

theorem dispatch_eq (calls : List (Descriptor × Option ActorRef)) (ws : WebSocket)
    (m : WebSocket → WSocketServerMessage ByteBuffer ClientHandshake Exception) :
    (register calls).dispatch (some ws) m = .ok
      (match lastReactor calls ws.getResourceDescriptor with
      | some actor => [.tell actor (m ws)]
      | none => [.close ws refuse]) := by
  simp only [WSocketServer.dispatch, lookup_register]
  cases lastReactor calls ws.getResourceDescriptor <;> rfl

theorem onOpen_dispatches_iff (calls : List (Descriptor × Option ActorRef)) (ws : WebSocket)
    (hs : ClientHandshake) :
    Dispatches calls ws (.onOpen hs : Callback ByteBuffer ClientHandshake Exception) ↔
      lastReactor calls ws.getResourceDescriptor ≠ none := by
  simp only [Dispatches, WSocketServer.callback, WSocketServer.onOpen, lookup_register]
  cases lastReactor calls ws.getResourceDescriptor with
  | none => simp
  | some actor => simp [Callback.message]

/-- After every history of registrations each callback is dispatched by the last registration of
its descriptor, except that `onOpen` has no case for a descriptor without a reactor. -/
theorem dispatches_iff (calls : List (Descriptor × Option ActorRef)) (ws : WebSocket)
    (c : Callback ByteBuffer ClientHandshake Exception) :
    Dispatches calls ws c ↔
      (∀ hs, c ≠ .onOpen hs) ∨ lastReactor calls ws.getResourceDescriptor ≠ none := by
  cases c with
  | onOpen hs =>
    rw [onOpen_dispatches_iff]
    exact ⟨Or.inr, fun h => h.resolve_left fun hne => hne hs rfl⟩
  | onMessage msg =>
    refine iff_of_true ?_ (Or.inl (by simp))
    exact dispatch_eq calls ws fun ws => .message ws msg
  | onBufferMessage buffer =>
    refine iff_of_true ?_ (Or.inl (by simp))
    exact dispatch_eq calls ws fun ws => .bufferMessage ws buffer
  | onClose code reason external =>
    refine iff_of_true ?_ (Or.inl (by simp))
    exact dispatch_eq calls ws fun ws => .closed ws code reason external
  | onError ex =>
    refine iff_of_true ?_ (Or.inl (by simp))
    exact dispatch_eq calls ws fun ws => .error ws ex

end Server

/-- A client opens `/chat` after the reactor of `/chat` was removed: the exception of `actor.get`
escapes, and the socket is not closed. -/
theorem open_unregistered_throws :
    (register [(some "/chat", some 1), (some "/chat", none)] : WSocketServer ℕ).callback
        (some ⟨0, some "/chat"⟩) (.onOpen () : Callback Unit Unit Unit) = .error .noSuchElement ∧
    ¬ Dispatches [(some "/chat", some 1), (some "/chat", none)] ⟨0, some "/chat"⟩
      (.onOpen () : Callback Unit Unit Unit) := by
  refine ⟨rfl, fun h => ?_⟩
  cases h

end SbtExample.Websocket
