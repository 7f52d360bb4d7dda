import SbtExample.Foundations.Transition
import SbtExample.Websocket.Registry

/-! # The echo of the index actors

The callbacks of the web socket server tell the reactors, which are `IndexActor`s, and each of them
handles its mailbox one message after the other. Registrations, callbacks and actors interleave.
`send` throws when the socket is not connected any more; the actor is then restarted and goes on
with its mailbox.
-/
set_option autoImplicit false
set_option maxHeartbeats 250000

namespace SbtExample.Websocket
open Transition

section Echo
variable {ActorRef ByteBuffer ClientHandshake Exception : Type}

/-- `IndexActor.receive`: the text that is sent, and the socket. The other messages are not
handled. `null` is appended as a text. -/
def IndexActor.receive :
    WSocketServerMessage ByteBuffer ClientHandshake Exception → Option (WebSocket × String)
  | .opened ws _ => some (ws, "Hello")
  | .message ws msg => some (ws, "【echo】" ++ msg.getD "null")
  | _ => none

structure System (ActorRef ByteBuffer ClientHandshake Exception : Type) where
  server : WSocketServer ActorRef := .new
  mailbox : ActorRef → List (WSocketServerMessage ByteBuffer ClientHandshake Exception) :=
    fun _ => []
  sent : List (ActorRef × WebSocket × String) := []
  closed : List (WebSocket × Int32) := []

/-- `connected` says whether the socket of the message is. -/
inductive Event (ActorRef ByteBuffer ClientHandshake Exception : Type)
  | forResource (descriptor : Descriptor) (reactor : Option ActorRef)
  | callback (ws : Option WebSocket) (c : Callback ByteBuffer ClientHandshake Exception)
  | receive (actor : ActorRef) (connected : Bool)

variable [DecidableEq ActorRef]

def System.perform (s : System ActorRef ByteBuffer ClientHandshake Exception) :
    Effect ActorRef ByteBuffer ClientHandshake Exception →
      System ActorRef ByteBuffer ClientHandshake Exception
  | .tell actor m =>
    { s with mailbox := Function.update s.mailbox actor (s.mailbox actor ++ [m]) }
  | .close ws code => { s with closed := s.closed ++ [(ws, code)] }

/-- An exception of a callback goes to the library. -/
def System.step (s : System ActorRef ByteBuffer ClientHandshake Exception) :
    Event ActorRef ByteBuffer ClientHandshake Exception →
      Option (System ActorRef ByteBuffer ClientHandshake Exception)
  | .forResource descriptor reactor =>
    some { s with server := s.server.forResource descriptor reactor }
  | .callback ws c =>
    match s.server.callback ws c with
    | .ok effects => some (effects.foldl System.perform s)
    | .error _ => some s
  | .receive actor connected =>
    match s.mailbox actor with
    | [] => none
    | m :: rest => some
      { s with
        mailbox := Function.update s.mailbox actor rest
        sent := s.sent ++
          if connected then (IndexActor.receive m).toList.map fun text => (actor, text) else [] }

/-! ## What the actors are told and what they send -/

/-- The messages for an actor, when `calls` have been registered before the run. -/
def told (a : ActorRef) (calls : List (Descriptor × Option ActorRef)) :
    List (Event ActorRef ByteBuffer ClientHandshake Exception) →
      List (WSocketServerMessage ByteBuffer ClientHandshake Exception)
  | [] => []
  | .forResource descriptor reactor :: es => told a (calls ++ [(descriptor, reactor)]) es
  | .callback (some ws) c :: es =>
    if lastReactor calls ws.getResourceDescriptor = some a then c.message ws :: told a calls es
    else told a calls es
  | .callback none _ :: es => told a calls es
  | .receive _ _ :: es => told a calls es

def System.sentBy (s : System ActorRef ByteBuffer ClientHandshake Exception) (a : ActorRef) :
    List (WebSocket × String) :=
  s.sent.filterMap fun x => if x.1 = a then some x.2 else none

/-- The reply that a callback of the socket asks for. -/
def Event.reply (ws : WebSocket) :
    Event ActorRef ByteBuffer ClientHandshake Exception → Option (WebSocket × String)
  | .callback (some ws') c => if ws' = ws then IndexActor.receive (c.message ws') else none
  | _ => none

/-- The replies that are due on a socket, in the order of its callbacks. -/
def replies (ws : WebSocket) (es : List (Event ActorRef ByteBuffer ClientHandshake Exception)) :
    List (WebSocket × String) :=
  es.filterMap (Event.reply ws)

variable {s t : System ActorRef ByteBuffer ClientHandshake Exception}
  {calls : List (Descriptor × Option ActorRef)}
  {es : List (Event ActorRef ByteBuffer ClientHandshake Exception)}

omit [DecidableEq ActorRef] in
theorem register_concat (descriptor : Descriptor) (reactor : Option ActorRef) :
    register (calls ++ [(descriptor, reactor)])
      = (register calls).forResource descriptor reactor := by
  rw [register, List.foldl_append]
  rfl

omit [DecidableEq ActorRef] in
theorem callback_registered {ws : WebSocket} {b : ActorRef}
    (h : lastReactor calls ws.getResourceDescriptor = some b)
    (c : Callback ByteBuffer ClientHandshake Exception) :
    (register calls).callback (some ws) c = .ok [.tell b (c.message ws)] := by
  have hdispatch : ∀ m : WebSocket → WSocketServerMessage ByteBuffer ClientHandshake Exception,
      (register calls).dispatch (some ws) m = .ok [.tell b (m ws)] := by
    intro m
    rw [dispatch_eq, h]
  cases c with
  | onOpen hs =>
    simp only [WSocketServer.callback, WSocketServer.onOpen, lookup_register, h]
    rfl
  | onMessage msg => exact hdispatch fun ws => .message ws msg
  | onBufferMessage buffer => exact hdispatch fun ws => .bufferMessage ws buffer
  | onClose code reason external => exact hdispatch fun ws => .closed ws code reason external
  | onError ex => exact hdispatch fun ws => .error ws ex

/-- Without a reactor the socket is refused or an exception escapes. -/
theorem step_unregistered {ws : WebSocket}
    (h : lastReactor calls ws.getResourceDescriptor = none) (hserver : s.server = register calls)
    {c : Callback ByteBuffer ClientHandshake Exception}
    (hstep : s.step (.callback (some ws) c) = some t) :
    t.server = s.server ∧ t.sent = s.sent ∧ t.mailbox = s.mailbox := by
  have hdispatch : ∀ m : WebSocket → WSocketServerMessage ByteBuffer ClientHandshake Exception,
      (register calls).dispatch (some ws) m = .ok [.close ws refuse] := by
    intro m
    rw [dispatch_eq, h]
  have hcases : (register calls).callback (some ws) c = .error .noSuchElement ∨
      (register calls).callback (some ws) c = .ok [.close ws refuse] := by
    cases c with
    | onOpen hs =>
      left
      simp only [WSocketServer.callback, WSocketServer.onOpen, lookup_register, h]
    | onMessage msg => exact .inr (hdispatch fun ws => .message ws msg)
    | onBufferMessage buffer => exact .inr (hdispatch fun ws => .bufferMessage ws buffer)
    | onClose code reason external =>
      exact .inr (hdispatch fun ws => .closed ws code reason external)
    | onError ex => exact .inr (hdispatch fun ws => .error ws ex)
  rw [System.step, hserver] at hstep
  rcases hcases with hcallback | hcallback <;> rw [hcallback] at hstep <;> cases hstep <;>
    exact ⟨rfl, rfl, rfl⟩

/-- A callback adds its message to the mailbox of the last reactor, and touches no other. -/
theorem step_callback (hserver : s.server = register calls) {ws : Option WebSocket}
    {c : Callback ByteBuffer ClientHandshake Exception} (hstep : s.step (.callback ws c) = some t)
    (a : ActorRef) :
    t.server = s.server ∧ t.sent = s.sent ∧
      s.mailbox a ++ told a calls (.callback ws c :: es) = t.mailbox a ++ told a calls es := by
  cases ws with
  | none =>
    have hnone : s.server.callback none c = .ok [] := by
      cases c <;> rfl
    rw [System.step, hnone] at hstep
    cases hstep
    exact ⟨rfl, rfl, rfl⟩
  | some ws =>
    rw [told]
    cases hreactor : lastReactor calls ws.getResourceDescriptor with
    | none =>
      obtain ⟨h1, h2, h3⟩ := step_unregistered hreactor hserver hstep
      exact ⟨h1, h2, by rw [h3, if_neg (Option.some_ne_none a).symm]⟩
    | some b =>
      rw [System.step, hserver, callback_registered hreactor] at hstep
      cases hstep
      refine ⟨rfl, rfl, ?_⟩
      by_cases hab : b = a
      · rw [if_pos (congrArg some hab), hab]
        simp [System.perform]
      · rw [if_neg fun h => hab (Option.some.inj h)]
        simp [System.perform, Function.update_of_ne (Ne.symm hab)]

/-- The actor takes the first message of its mailbox; a text is sent when the socket is connected. -/
theorem step_receive {b : ActorRef} {connected : Bool}
    (hstep : s.step (.receive b connected) = some t) (a : ActorRef) :
    t.server = s.server ∧
      (b ≠ a → t.mailbox a = s.mailbox a ∧ t.sentBy a = s.sentBy a) ∧
      (b = a → ∃ m, s.mailbox a = m :: t.mailbox a ∧ t.sentBy a = s.sentBy a ++
        if connected then (IndexActor.receive m).toList else []) := by
  rw [System.step] at hstep
  cases hmailbox : s.mailbox b with
  | nil =>
    rw [hmailbox] at hstep
    cases hstep
  | cons m rest =>
    rw [hmailbox] at hstep
    cases hstep
    refine ⟨rfl, fun hne => ⟨Function.update_of_ne (Ne.symm hne) _ _, ?_⟩, fun hab => ⟨m, ?_, ?_⟩⟩
    · simp only [System.sentBy, List.filterMap_append]
      cases connected <;> cases IndexActor.receive m <;> simp [hne]
    · subst hab
      simp [hmailbox]
    · subst hab
      simp only [System.sentBy, List.filterMap_append]
      cases connected <;> cases IndexActor.receive m <;> simp

/-! ## Every run -/

/-- The actor has found the socket of each of its messages connected. -/
def Connected (a : ActorRef) (es : List (Event ActorRef ByteBuffer ClientHandshake Exception)) :
    Prop := ∀ e ∈ es, e ≠ .receive a false

/-- What the run from `s` to `t` made of the mailbox of `a`: the first messages were handled, each
once and in order, and the texts sent are replies to them in the same order. -/
structure Handles (a : ActorRef) (calls : List (Descriptor × Option ActorRef))
    (es : List (Event ActorRef ByteBuffer ClientHandshake Exception))
    (s t : System ActorRef ByteBuffer ClientHandshake Exception)
    (handled : List (WSocketServerMessage ByteBuffer ClientHandshake Exception))
    (texts : List (WebSocket × String)) : Prop where
  mailbox : s.mailbox a ++ told a calls es = handled ++ t.mailbox a
  sentBy : t.sentBy a = s.sentBy a ++ texts
  sublist : texts.Sublist (handled.filterMap IndexActor.receive)
  connected : Connected a es → texts = handled.filterMap IndexActor.receive

theorem filterMap_cons_eq {α β : Type} (g : α → Option β) (x : α) (l : List α) :
    (x :: l).filterMap g = (g x).toList ++ l.filterMap g := by
  rw [List.filterMap_cons]
  cases g x <;> rfl

theorem run_handles (a : ActorRef) (hserver : s.server = register calls)
    (h : run System.step s es = some t) : ∃ handled texts, Handles a calls es s t handled texts := by
  induction es generalizing s calls with
  | nil =>
    cases h
    exact ⟨[], [], by rw [told, List.append_nil]; rfl, (List.append_nil _).symm, List.nil_sublist _,
      fun _ => rfl⟩
  | cons e es ih =>
    rw [run_cons] at h
    obtain ⟨u, hu, ht⟩ := Option.bind_eq_some_iff.mp h
    cases e with
    | forResource descriptor reactor =>
      cases hu
      obtain ⟨handled, texts, hmailbox, hsent, hsub, hconn⟩ :=
        ih (s := { s with server := s.server.forResource descriptor reactor })
          ((congrArg (fun server => server.forResource descriptor reactor) hserver).trans
            (register_concat descriptor reactor).symm) ht
      exact ⟨handled, texts, hmailbox, hsent, hsub,
        fun hall => hconn fun e he => hall e (List.mem_cons_of_mem _ he)⟩
    | callback ws c =>
      obtain ⟨hs, hsentu, hm⟩ := step_callback hserver hu a
      obtain ⟨handled, texts, hmailbox, hsent, hsub, hconn⟩ := ih (hs.trans hserver) ht
      refine ⟨handled, texts, hm.trans hmailbox, ?_, hsub,
        fun hall => hconn fun e he => hall e (List.mem_cons_of_mem _ he)⟩
      rw [hsent, System.sentBy, hsentu]
      rfl
    | receive b connected =>
      obtain ⟨hs, hother, hself⟩ := step_receive hu a
      obtain ⟨handled, texts, hmailbox, hsent, hsub, hconn⟩ := ih (hs.trans hserver) ht
      by_cases hab : b = a
      · obtain ⟨m, hm, hsentu⟩ := hself hab
        refine ⟨m :: handled, (if connected then (IndexActor.receive m).toList else []) ++ texts,
          ?_, ?_, ?_, fun hall => ?_⟩
        · rw [hm, told, List.cons_append, hmailbox, List.cons_append]
        · rw [hsent, hsentu, List.append_assoc]
        · rw [filterMap_cons_eq]
          cases connected with
          | true => exact hsub.append_left _
          | false => exact List.sublist_append_of_sublist_right hsub
        · have htrue : connected = true := by
            by_contra hfalse
            rw [Bool.not_eq_true] at hfalse
            exact hall _ List.mem_cons_self (by rw [hab, hfalse])
          rw [filterMap_cons_eq, if_pos htrue,
            hconn fun e he => hall e (List.mem_cons_of_mem _ he)]
      · obtain ⟨hm, hsentu⟩ := hother hab
        refine ⟨handled, texts, ?_, ?_, hsub,
          fun hall => hconn fun e he => hall e (List.mem_cons_of_mem _ he)⟩
        · rw [told, ← hm]
          exact hmailbox
        · rw [hsent, hsentu]

omit [DecidableEq ActorRef] in
/-- A reply goes to the socket of the callback. -/
theorem filter_receive (ws ws' : WebSocket) (c : Callback ByteBuffer ClientHandshake Exception) :
    (IndexActor.receive (c.message ws')).toList.filter (fun x => decide (x.1 = ws))
      = (if ws' = ws then IndexActor.receive (c.message ws') else none).toList := by
  by_cases h : ws' = ws
  · cases c <;> simp [Callback.message, IndexActor.receive, h]
  · cases c <;> simp [Callback.message, IndexActor.receive, h]

omit [DecidableEq ActorRef] in
theorem replies_cons (ws : WebSocket) (e : Event ActorRef ByteBuffer ClientHandshake Exception) :
    (replies ws es).Sublist (replies ws (e :: es)) := by
  rw [replies, replies, filterMap_cons_eq]
  exact List.sublist_append_right _ _

theorem told_replies (ws : WebSocket) (a : ActorRef) :
    (((told a calls es).filterMap IndexActor.receive).filter
      fun x => decide (x.1 = ws)).Sublist (replies ws es) := by
  induction es generalizing calls with
  | nil => exact List.nil_sublist _
  | cons e es ih =>
    cases e with
    | forResource descriptor reactor => exact ih.trans (replies_cons ws _)
    | receive b connected => exact ih.trans (replies_cons ws _)
    | callback ws' c =>
      cases ws' with
      | none => exact ih.trans (replies_cons ws _)
      | some ws' =>
        rw [told]
        split_ifs with hreactor
        · rw [filterMap_cons_eq, List.filter_append, filter_receive, replies, filterMap_cons_eq]
          exact ih.append_left _
        · exact ih.trans (replies_cons ws _)

/-- Each actor handles what it was told, once and in order. What it sends on a socket are the
greeting and the echoes that the callbacks of this socket ask for, in their order; none is missing
among the handled ones as long as its sockets are connected. -/
theorem echoes_in_order (es : List (Event ActorRef ByteBuffer ClientHandshake Exception))
    (s : System ActorRef ByteBuffer ClientHandshake Exception)
    (h : run System.step {} es = some s) (a : ActorRef) :
    ∃ handled, told a [] es = handled ++ s.mailbox a ∧
      (s.sentBy a).Sublist (handled.filterMap IndexActor.receive) ∧
      (Connected a es → s.sentBy a = handled.filterMap IndexActor.receive) ∧
      ∀ ws, ((s.sentBy a).filter fun x => decide (x.1 = ws)).Sublist (replies ws es) := by
  have hserver : ({} : System ActorRef ByteBuffer ClientHandshake Exception).server = register [] :=
    rfl
  obtain ⟨handled, texts, hmailbox, hsent, hsub, hconn⟩ := run_handles a hserver h
  change told a [] es = handled ++ s.mailbox a at hmailbox
  change s.sentBy a = texts at hsent
  rw [hsent]
  refine ⟨handled, hmailbox, hsub, hconn, fun ws => ?_⟩
  have htold : (((told a [] es).filterMap IndexActor.receive).filter
      fun x => decide (x.1 = ws)).Sublist (replies ws es) := told_replies ws a
  rw [hmailbox, List.filterMap_append, List.filter_append] at htold
  exact ((hsub.filter _).trans (List.sublist_append_left _ _)).trans htold

end Echo

/-- Two sockets and two actors; the second actor takes over while the first has a message left. -/
def takeover : List (Event ℕ Unit Unit Unit) :=
  [.forResource (some "/chat") (some 1), .callback (some ⟨0, some "/chat"⟩) (.onOpen ()),
    .callback (some ⟨7, some "/chat"⟩) (.onOpen ()), .receive 1 true,
    .callback (some ⟨0, some "/chat"⟩) (.onMessage (some "one")),
    .forResource (some "/chat") (some 2),
    .callback (some ⟨0, some "/chat"⟩) (.onMessage (some "two")), .receive 2 true, .receive 1 false,
    .receive 1 true]

theorem echoes_in_order_takeover :
    ∃ s : System ℕ Unit Unit Unit, s.sentBy 1 = [(⟨0, some "/chat"⟩, "Hello"),
        (⟨0, some "/chat"⟩, "【echo】one")] ∧
      ((s.sentBy 1).filter fun x => decide (x.1 = ⟨0, some "/chat"⟩)).Sublist
        (replies ⟨0, some "/chat"⟩ takeover) := by
  have hrun : (run System.step {} takeover).any fun s => decide (s.sentBy 1
      = [(⟨0, some "/chat"⟩, "Hello"), (⟨0, some "/chat"⟩, "【echo】one")]) := by
    decide +kernel
  obtain ⟨s, hs, hsent⟩ := (Option.any_eq_true _ _).mp hrun
  obtain ⟨-, -, -, -, hreplies⟩ := echoes_in_order takeover s hs 1
  exact ⟨s, of_decide_eq_true hsent, hreplies ⟨0, some "/chat"⟩⟩

end SbtExample.Websocket
