import SbtExample.Calculator.Program
import SbtExample.Foundations.Fairness

/-! # Looking up the remote calculator (`LookupActor.scala`)

The actor asks for the calculator until it is identified, and then forwards operations to it. An
exception restarts the actor, which runs its constructor again; what the supervisor does about a
death pact is a parameter. Messages other than the timeout may arrive at any time and in any number.
-/
set_option autoImplicit false
set_option maxHeartbeats 250000

namespace SbtExample.Calculator

namespace LookupActor
variable {Double ActorRef : Type}

inductive Message (Double ActorRef : Type)
  | actorIdentity (correlationId : String) (ref : Option ActorRef)
  | receiveTimeout
  | terminated (actor : ActorRef)
  | mathOp (op : MathOp Double)
  | mathResult (result : MathResult Double)
  | other
  deriving DecidableEq

inductive Effect (Double ActorRef : Type)
  | identify (path : String)
  | scheduleOnce
  | watch (actor : ActorRef)
  | tell (actor : ActorRef) (op : MathOp Double)
  | logResult (result : MathResult Double)
  | info (text : String)
  | error (text : String)
  deriving DecidableEq

inductive Behavior (ActorRef : Type)
  | identifying
  | active (actor : ActorRef)
  deriving DecidableEq

inductive Throwable
  | matchError
  | deathPact

/-- `Identify` goes to the path, and `ReceiveTimeout` to the actor itself three seconds later. -/
def sendIdentifyRequest (path : String) : List (Effect Double ActorRef) :=
  [.identify path, .scheduleOnce]

/-! ## The behaviours -/

def identifying (path : String) : Message Double ActorRef →
    Behavior ActorRef × List (Effect Double ActorRef)
  | .actorIdentity correlationId (some actor) =>
    if correlationId = path then (.active actor, [.watch actor])
    else (.identifying, [.info "Not ready yet"])
  | .actorIdentity correlationId none =>
    if correlationId = path then (.identifying, [.error ("Remote actor not available: " ++ path)])
    else (.identifying, [.info "Not ready yet"])
  | .receiveTimeout => (.identifying, sendIdentifyRequest path)
  | _ => (.identifying, [.info "Not ready yet"])

/-- Messages without a case are unhandled, which is a death pact for `Terminated`. -/
def active [DecidableEq ActorRef] (path : String) (actor : ActorRef) : Message Double ActorRef →
    Except Throwable (Behavior ActorRef × List (Effect Double ActorRef))
  | .mathOp op => .ok (.active actor, [.tell actor op])
  | .mathResult result =>
    match result with
    | .add n1 n2 r => .ok (.active actor, [.logResult (.add n1 n2 r)])
    | .subtract n1 n2 r => .ok (.active actor, [.logResult (.subtract n1 n2 r)])
    | .multiplication _ _ _ | .division _ _ _ => .error .matchError
  | .terminated dead =>
    if dead = actor then .ok (.identifying, .info "Calculator terminated" :: sendIdentifyRequest path)
    else .error .deathPact
  | .receiveTimeout => .ok (.active actor, [])
  | .actorIdentity _ _ | .other => .ok (.active actor, [])

def receive [DecidableEq ActorRef] (path : String) : Behavior ActorRef →
    Message Double ActorRef → Except Throwable (Behavior ActorRef × List (Effect Double ActorRef))
  | .identifying, m => .ok (identifying path m)
  | .active actor, m => active path actor m

/-! ## The supervisor -/

inductive Directive
  | restart
  | stop

/-- What the constructor leaves, at the start and after every restart. -/
def started (path : String) : Option (Behavior ActorRef) × List (Effect Double ActorRef) :=
  (some .identifying, sendIdentifyRequest path)

/-- The behaviour after the message, which is `none` when the actor was stopped. -/
def handle [DecidableEq ActorRef] (path : String) (onDeathPact : Directive)
    (b : Behavior ActorRef) (m : Message Double ActorRef) :
    Option (Behavior ActorRef) × List (Effect Double ActorRef) :=
  match receive path b m with
  | .ok (b', effects) => (some b', effects)
  | .error .matchError => started path
  | .error .deathPact =>
    match onDeathPact with
    | .restart => started path
    | .stop => (none, [])

/-! ## The actor with its mailbox and its timers -/

structure State (Double ActorRef : Type) where
  behavior : Option (Behavior ActorRef)
  mailbox : List (Message Double ActorRef)
  scheduled : ℕ
  effects : List (Effect Double ActorRef)

def Effect.isTimer : Effect Double ActorRef → Bool
  | .scheduleOnce => true
  | _ => false

def Message.isTimeout : Message Double ActorRef → Bool
  | .receiveTimeout => true
  | _ => false

def State.initial (path : String) : State Double ActorRef :=
  let (b, effects) := started path
  ⟨b, [], effects.countP Effect.isTimer, effects⟩

inductive Label (Double ActorRef : Type)
  | arrive (m : Message Double ActorRef)
  | fire
  | handle

/-- Only the scheduler sends `ReceiveTimeout`. The messages for a stopped actor are dropped. -/
def step [DecidableEq ActorRef] (path : String) (onDeathPact : Directive)
    (s : State Double ActorRef) : Label Double ActorRef → Option (State Double ActorRef)
  | .arrive m => if m.isTimeout then none else some { s with mailbox := s.mailbox ++ [m] }
  | .fire =>
    match s.scheduled with
    | 0 => none
    | n + 1 => some { s with scheduled := n, mailbox := s.mailbox ++ [.receiveTimeout] }
  | .handle =>
    match s.mailbox, s.behavior with
    | [], _ => none
    | _ :: rest, none => some { s with mailbox := rest }
    | m :: rest, some b =>
      let (b', effects) := LookupActor.handle path onDeathPact b m
      some ⟨b', rest, s.scheduled + effects.countP Effect.isTimer, s.effects ++ effects⟩

end LookupActor

end SbtExample.Calculator
