import SbtExample.Foundations.Transition

/-! # The Redis queue sample (`SampleCommands.scala`)

The `queueListener` loop, the `pushSampleDataToQueue` loop and other clients of one list. A command
that was issued is executed by Redis later, its reply arrives later still, and its future may fail
at any time in between: a failure ends the loop, and a command that had not been executed by then
may still be. The buffers and their conversion to a string are those of the client library.
-/
set_option autoImplicit false
set_option maxHeartbeats 250000

namespace SbtExample.RedisQueue

section Program
variable {Buffer : Type}

/-- Where the listener's loop is: the pop is issued, the reply is on its way, or it sleeps. A loop
that failed may have left a pop to be executed. -/
inductive Listener (Buffer : Type)
  | popping
  | replied (v : Option Buffer)
  | pausing
  | failed (popLeft : Bool)
  deriving DecidableEq

/-- The loop that pushes sample data; a loop that failed may have left a push to be executed. -/
inductive Pusher (Buffer : Type)
  | pushing (v : Buffer)
  | replied
  | pausing
  | failed (pushLeft : Option Buffer)
  deriving DecidableEq

inductive Output
  | value (s : String)
  | dot
  deriving DecidableEq

/-- The list in Redis, the two loops and the console. `received` are the buffers that the listener
got, `pushed` all the values in the order in which Redis appended them, `lost` the popped values
whose reply nobody got. -/
structure System (Buffer : Type) where
  list : List Buffer
  listener : Listener Buffer
  pusher : Pusher Buffer
  output : List Output
  received : List Buffer
  pushed : List Buffer
  lost : List Buffer
  popsIssued : ℕ

def System.initial (list : List Buffer) (v : Buffer) : System Buffer :=
  ⟨list, .popping, .pushing v, [], [], [], [], 1⟩

inductive Label (Buffer : Type)
  | executePop
  | popReply
  | wakeListener
  | failPop
  | executePush
  | pushReply
  | wakePusher (v : Buffer)
  | failPush
  | foreignPush (vs : List Buffer)

/-! ## Redis -/

/-- `LPOP`. -/
def System.lPop (s : System Buffer) : Option Buffer × System Buffer :=
  (s.list.head?, { s with list := s.list.tail })

/-- `RPUSH`. -/
def System.rPush (s : System Buffer) (vs : List Buffer) : System Buffer :=
  { s with list := s.list ++ vs, pushed := s.pushed ++ vs }

/-! ## The loops -/

def System.issuePop (s : System Buffer) : System Buffer :=
  { s with listener := .popping, popsIssued := s.popsIssued + 1 }

def System.executePop (s : System Buffer) : Option (System Buffer) :=
  match s.listener with
  | .popping =>
    let popped := s.lPop
    some { popped.2 with listener := Listener.replied popped.1 }
  | .failed true =>
    let popped := s.lPop
    some { popped.2 with listener := .failed false, lost := s.lost ++ popped.1.toList }
  | _ => none

/-- The `flatMap` on the reply: a value is printed and the loop goes on, otherwise a dot is printed
and the loop sleeps. -/
def System.popReply (toStr : Buffer → String) (s : System Buffer) : Option (System Buffer) :=
  match s.listener with
  | .replied (some v) =>
    let printed := { s with
      output := s.output ++ [Output.value (toStr v)]
      received := s.received ++ [v] }
    some printed.issuePop
  | .replied none => some { s with output := s.output ++ [Output.dot], listener := .pausing }
  | _ => none

def System.wakeListener (s : System Buffer) : Option (System Buffer) :=
  match s.listener with
  | .pausing => some s.issuePop
  | _ => none

def System.failPop (s : System Buffer) : Option (System Buffer) :=
  match s.listener with
  | .popping => some { s with listener := .failed true }
  | .replied v => some { s with listener := .failed false, lost := s.lost ++ v.toList }
  | _ => none

def System.executePush (s : System Buffer) : Option (System Buffer) :=
  match s.pusher with
  | .pushing v => some { s.rPush [v] with pusher := .replied }
  | .failed (some v) => some { s.rPush [v] with pusher := .failed none }
  | _ => none

def System.pushReply (s : System Buffer) : Option (System Buffer) :=
  match s.pusher with
  | .replied => some { s with pusher := .pausing }
  | _ => none

/-- `loop` of the pusher, with its next random value. -/
def System.wakePusher (s : System Buffer) (v : Buffer) : Option (System Buffer) :=
  match s.pusher with
  | .pausing => some { s with pusher := .pushing v }
  | _ => none

def System.failPush (s : System Buffer) : Option (System Buffer) :=
  match s.pusher with
  | .pushing v => some { s with pusher := .failed (some v) }
  | .replied => some { s with pusher := .failed none }
  | _ => none

def step (toStr : Buffer → String) (s : System Buffer) : Label Buffer → Option (System Buffer)
  | .executePop => s.executePop
  | .popReply => s.popReply toStr
  | .wakeListener => s.wakeListener
  | .failPop => s.failPop
  | .executePush => s.executePush
  | .pushReply => s.pushReply
  | .wakePusher v => s.wakePusher v
  | .failPush => s.failPush
  | .foreignPush vs => some (s.rPush vs)

/-- `s` is a state of some run on a list with this content; `v` is the first value pushed. -/
abbrev Reaches (toStr : Buffer → String) (list : List Buffer) (v : Buffer) (s : System Buffer) :
    Prop :=
  Transition.Reachable (step toStr) (.initial list v) s

end Program

end SbtExample.RedisQueue
