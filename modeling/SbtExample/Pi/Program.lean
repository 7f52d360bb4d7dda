import SbtExample.Foundations.MachineInt
import SbtExample.Foundations.ScatterGather

/-! # The distributed computation of pi (`Pi.scala`, `MyPi.scala`)

The objects `Pi` and `MyPi` have the same `Master` and `Worker`. `Int` arithmetic wraps as in the
source, `Double` arithmetic is replaced by exact rationals.
-/
set_option autoImplicit false
set_option maxHeartbeats 250000

namespace SbtExample.Pi
open MachineInt ScatterGather

structure Work where
  start : Int32
  nrOfElements : Int32
  deriving DecidableEq

structure PiApproximation where
  pi : ℚ
  duration : Int64

/-! ## Worker -/

/-- `4.0 * (1 - (i % 2) * 2) / (2 * i + 1)`: the factor and the divisor are `Int` expressions. -/
def term (i : Int32) : ℚ :=
  4 * ((1 - i % 2 * 2 : Int32).toInt : ℚ) / ((2 * i + 1 : Int32).toInt : ℚ)

/-- The values of the loop variable, `start until (start + nrOfElements)`. -/
def Work.indices (w : Work) : List Int32 := untilRange w.start (w.start + w.nrOfElements)

def calculatePiFor (w : Work) : ℚ := w.indices.foldl (fun acc i => acc + term i) 0

/-! ## Master -/

structure Master where
  nrOfWorkers : Int32
  nrOfMessages : Int32
  nrOfElements : Int32
  start : Int64
  pi : ℚ
  nrOfResults : Int32

def Master.new (nrOfWorkers nrOfMessages nrOfElements : Int32) (start : Int64) : Master :=
  ⟨nrOfWorkers, nrOfMessages, nrOfElements, start, 0, 0⟩

/-- `case Calculate`: the messages for the router. -/
def Master.calculate (m : Master) : List Work :=
  (untilRange 0 m.nrOfMessages).map fun i => ⟨i * m.nrOfElements, m.nrOfElements⟩

/-- `case Result(value)`; an approximation goes to the listener and is followed by
`context.stop(self)`. -/
def Master.result (m : Master) (now : Int64) (value : ℚ) : Master × Option PiApproximation :=
  let pi := m.pi + value
  let nrOfResults := m.nrOfResults + 1
  ({ m with pi := pi, nrOfResults := nrOfResults },
    if nrOfResults = m.nrOfMessages then some ⟨pi, now - m.start⟩ else none)

/-! ## The system -/

def protocol : Protocol Master Work ℚ Int64 PiApproximation where
  scatter := Master.calculate
  work := calculatePiFor
  gather := Master.result

abbrev System : Type := State Master Work ℚ PiApproximation

/-- `calculate(..)`: the master is created and sent one `Calculate`. -/
def calculate (nrOfWorkers nrOfMessages nrOfElements : Int32) (start : Int64) : System :=
  initial (Master.new nrOfWorkers nrOfMessages nrOfElements start)

abbrev Reaches (nrOfWorkers nrOfMessages nrOfElements : Int32) (start : Int64) (s : System) :
    Prop :=
  Transition.Reachable (step protocol) (calculate nrOfWorkers nrOfMessages nrOfElements start) s

end SbtExample.Pi
