import SbtExample.Foundations.Bag
import SbtExample.Foundations.Transition

/-! # Calculators created on demand (`CreationActor.scala`, `CalculatorActor.scala`)

`CreationActor` makes a child for each operation and stops it when its result comes back. The
division of a `Double` by an `Int` is a parameter. An operation is known by its position among the
accepted ones: messages carry it as a history variable that no step reads.
-/
set_option autoImplicit false
set_option maxHeartbeats 250000

namespace SbtExample.Calculator
open Bag

inductive MathOp (Double : Type)
  | add (nbr1 nbr2 : Int32)
  | subtract (nbr1 nbr2 : Int32)
  | multiply (nbr1 nbr2 : Int32)
  | divide (nbr1 : Double) (nbr2 : Int32)
  deriving DecidableEq

inductive MathResult (Double : Type)
  | add (nbr nbr2 result : Int32)
  | subtract (nbr1 nbr2 result : Int32)
  | multiplication (nbr1 nbr2 result : Int32)
  | division (nbr1 : Double) (nbr2 : Int32) (result : Double)
  deriving DecidableEq

section Actors
variable {Double : Type}

/-! ## The actors -/

def CalculatorActor.receive (div : Double → Int32 → Double) : MathOp Double → MathResult Double
  | .add n1 n2 => .add n1 n2 (n1 + n2)
  | .subtract n1 n2 => .subtract n1 n2 (n1 - n2)
  | .multiply n1 n2 => .multiplication n1 n2 (n1 * n2)
  | .divide n1 n2 => .division n1 n2 (div n1 n2)

/-- The results that `CreationActor` has a case for: it prints them and stops the sender. Another
result is a `MatchError`. -/
def CreationActor.matches : MathResult Double → Bool
  | .multiplication _ _ _ | .division _ _ _ => true
  | .add _ _ _ | .subtract _ _ _ => false

/-- A child told to stop is `stopping` until it has `terminated`. -/
inductive Status
  | alive
  | stopping
  | terminated
  deriving DecidableEq

structure Child (Double : Type) where
  mailbox : List (ℕ × MathOp Double)
  received : List (ℕ × MathOp Double)
  status : Status

def Child.stop (c : Child Double) : Child Double :=
  match c.status with
  | .alive => { c with status := .stopping }
  | _ => c

/-- A result on its way to the creation actor; the sender is a position among the children. -/
structure Answer (Double : Type) where
  op : ℕ
  sender : ℕ
  result : MathResult Double

structure Handled (Double : Type) where
  op : ℕ
  result : MathResult Double
  stopped : ℕ

/-! ## The system -/

structure System (Double : Type) where
  accepted : List (MathOp Double)
  children : List (Child Double)
  answers : List (Answer Double)
  handled : List (Handled Double)

def System.initial : System Double := ⟨[], [], [], []⟩

inductive Label (Double : Type)
  | operation (op : MathOp Double)
  | process (child : ℕ)
  | deliver (k : ℕ)
  | terminate (child : ℕ)

/-- `case op: MathOp`: a new child gets the operation. -/
def System.operation (s : System Double) (op : MathOp Double) : System Double :=
  { s with
    accepted := s.accepted ++ [op]
    children := s.children ++ [⟨[(s.accepted.length, op)], [], .alive⟩] }

def System.process (div : Double → Int32 → Double) (s : System Double) (child : ℕ) :
    Option (System Double) :=
  match s.children[child]? with
  | some ⟨(i, op) :: rest, received, status⟩ =>
    if status = .terminated then none
    else some { s with
      children := s.children.set child ⟨rest, received ++ [(i, op)], status⟩
      answers := ⟨i, child, CalculatorActor.receive div op⟩ :: s.answers }
  | _ => none

/-- `case result: MathResult`; the exception of an unmatched result restarts the actor, which stops
all its children. -/
def System.deliver (s : System Double) (k : ℕ) : Option (System Double) :=
  (pick s.answers k).map fun (a, rest) =>
    if CreationActor.matches a.result then
      { s with
        answers := rest
        children := s.children.modify a.sender Child.stop
        handled := ⟨a.op, a.result, a.sender⟩ :: s.handled }
    else { s with answers := rest, children := s.children.map Child.stop }

def System.terminate (s : System Double) (child : ℕ) : Option (System Double) :=
  match s.children[child]? with
  | some ⟨_, received, .stopping⟩ =>
    some { s with children := s.children.set child ⟨[], received, .terminated⟩ }
  | _ => none

def step (div : Double → Int32 → Double) (s : System Double) : Label Double →
    Option (System Double)
  | .operation op => some (s.operation op)
  | .process child => s.process div child
  | .deliver k => s.deliver k
  | .terminate child => s.terminate child

end Actors

end SbtExample.Calculator
