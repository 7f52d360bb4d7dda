import SbtExample.Foundations.MachineInt
import SbtExample.Foundations.Transition

/-! # The remoting benchmark (`Sender.scala`, `Receiver.scala`)

The two actors and the channels between them. `Int` values wrap; clock readings are nanoseconds in
`ℤ`, as differences of `nanoTime` stay far from the bounds of `Long`. The bytes of a payload and the
throughput, a `Double` that is only printed, are left out.
-/
set_option autoImplicit false
set_option maxHeartbeats 250000

namespace SbtExample.Benchmark
open MachineInt

/-! ## Messages -/

inductive Echo
  | start
  | done
  | continue (remaining : Int32) (startTime burstStartTime : ℤ) (n : Int32)
  deriving DecidableEq

inductive Message
  | warmup
  | shutdown
  | echo (m : Echo)
  | payload
  | actorIdentity (found : Bool)
  | receiveTimeout
  | terminated
  deriving DecidableEq

inductive Line
  | notAvailable
  | starting
  | progress (duration : ℤ) (n : Int32) (roundTripMillis : ℤ) (remaining : Int32)
  | took (millis maxRoundTripMillis : ℤ)
  | receiverTerminated
  deriving DecidableEq

/-- What a handler does to the world, in order. -/
inductive Effect
  | identify
  | tellSelf (m : Message)
  | tell (m : Message)
  | print (line : Line)
  | shutdown

/-! ## Sender -/

inductive Behavior
  | identifying
  | active
  deriving DecidableEq

structure Sender where
  totalMessages : Int32
  burstSize : Int32
  startTime : ℤ
  maxRoundTripMillis : ℤ
  receive : Behavior
  receiveTimeout : Bool

def Sender.new (totalMessages burstSize : Int32) : Sender :=
  ⟨totalMessages, burstSize, 0, 0, .identifying, true⟩

/-- `nanos.toMillis`, which rounds towards zero. -/
def toMillis (nanos : ℤ) : ℤ := nanos.tdiv 1000000

def Sender.batchSize (s : Sender) (remaining : Int32) : Int32 := min remaining s.burstSize

def Sender.sendBatch (s : Sender) (remaining : Int32) : List Effect :=
  (toRange 1 (s.batchSize remaining)).map fun _ => .tell .payload

/-- The result of `sendBatch`: what remains after the batch. -/
def Sender.afterBatch (s : Sender) (remaining : Int32) : Int32 :=
  remaining - s.batchSize remaining

def Sender.identifying (s : Sender) : Message → Sender × List Effect
  | .actorIdentity true =>
    ({ s with receive := .active, receiveTimeout := false }, [.tellSelf .warmup])
  | .actorIdentity false => (s, [.print .notAvailable])
  | .receiveTimeout => (s, [.identify])
  | _ => (s, [])

def Sender.onStart (s : Sender) (now : ℤ) : Sender × List Effect :=
  let remaining := s.afterBatch s.totalMessages
  ({ s with startTime := now },
    .print .starting :: s.sendBatch s.totalMessages ++
      [.tell (.echo (if remaining = 0 then .done else .continue remaining now now s.burstSize))])

def Sender.onContinue (s : Sender) (now : ℤ) (remaining : Int32) (t0 t1 : ℤ) (n : Int32) :
    Sender × List Effect :=
  let duration := toMillis (now - t0)
  let roundTripMillis := toMillis (now - t1)
  let nextRemaining := s.afterBatch remaining
  ({ s with maxRoundTripMillis := max s.maxRoundTripMillis roundTripMillis },
    (if 500 ≤ duration then [.print (.progress duration n roundTripMillis remaining)] else []) ++
      s.sendBatch remaining ++
      [.tell (.echo
        (if nextRemaining = 0 then .done
        else if 500 ≤ duration then .continue nextRemaining now now s.burstSize
        else .continue nextRemaining t0 now (n + s.burstSize)))])

def Sender.active (s : Sender) (now : ℤ) : Message → Sender × List Effect
  | .warmup => (s, s.sendBatch s.burstSize ++ [.tell (.echo .start)])
  | .echo .start => s.onStart now
  | .echo (.continue remaining t0 t1 n) => s.onContinue now remaining t0 t1 n
  | .echo .done =>
    (s, [.print (.took (toMillis (now - s.startTime)) s.maxRoundTripMillis), .tell .shutdown])
  | .terminated => (s, [.print .receiverTerminated, .shutdown])
  | _ => (s, [])

def Sender.handle (s : Sender) (now : ℤ) (m : Message) : Sender × List Effect :=
  match s.receive with
  | .identifying => s.identifying m
  | .active => s.active now m

/-! ## The system -/

inductive Event
  | handled (m : Message)
  | sent (m : Message)
  | received (m : Message)
  deriving DecidableEq

/-- Messages between two actors arrive in the order of sending. The `history` is newest first. -/
structure System where
  sender : Sender
  senderUp : Bool
  receiverUp : Bool
  toSelf : List Message
  toReceiver : List Message
  toSender : List Echo
  printed : List Line
  history : List Event

def System.initial (totalMessages burstSize : Int32) : System :=
  ⟨Sender.new totalMessages burstSize, true, true, [], [], [], [], []⟩

def System.perform (s : System) : Effect → System
  | .identify => s
  | .tellSelf m => { s with toSelf := s.toSelf ++ [m] }
  | .tell m => { s with toReceiver := s.toReceiver ++ [m], history := .sent m :: s.history }
  | .print line => { s with printed := s.printed ++ [line] }
  | .shutdown => { s with senderUp := false }

def System.senderHandles (s : System) (now : ℤ) (m : Message) : System :=
  let handled := s.sender.handle now m
  handled.2.foldl System.perform
    { s with sender := handled.1, history := .handled m :: s.history }

/-- `Receiver.receive`. -/
def System.receiverHandles (s : System) (m : Message) : System :=
  let s := { s with history := .received m :: s.history }
  match m with
  | .echo e => { s with toSender := s.toSender ++ [e] }
  | .shutdown => { s with receiverUp := false }
  | _ => s

/-- `Identify` requests are answered, or not, at any time and any number of times; a receive timeout
may still be in the mailbox when the sender has become active; the receiver terminates by
`Shutdown` only. -/
inductive Label
  | identity (found : Bool)
  | timeout
  | watched
  | selfNext (now : ℤ)
  | senderNext (now : ℤ)
  | receiverNext

def step (s : System) : Label → Option System
  | .identity found =>
    if s.senderUp then some (s.senderHandles 0 (.actorIdentity found)) else none
  | .timeout => if s.senderUp then some (s.senderHandles 0 .receiveTimeout) else none
  | .watched =>
    if s.senderUp ∧ s.receiverUp = false then some (s.senderHandles 0 .terminated) else none
  | .selfNext now =>
    match s.senderUp, s.toSelf with
    | true, m :: rest => some ({ s with toSelf := rest }.senderHandles now m)
    | _, _ => none
  | .senderNext now =>
    match s.senderUp, s.toSender with
    | true, m :: rest => some ({ s with toSender := rest }.senderHandles now (.echo m))
    | _, _ => none
  | .receiverNext =>
    match s.receiverUp, s.toReceiver with
    | true, m :: rest => some ({ s with toReceiver := rest }.receiverHandles m)
    | _, _ => none

abbrev Reaches (totalMessages burstSize : Int32) (s : System) : Prop :=
  Transition.Reachable step (.initial totalMessages burstSize) s

end SbtExample.Benchmark
