import SbtExample.Foundations.MachineInt
import SbtExample.Foundations.ScatterGather
import SbtExample.Foundations.Tally

/-! # The word counter (`WcWithAkka.scala`)

`Master`, `Worker` and the messages between them, with the data split at the spaces taken as a
parameter. `mutable.HashMap[String, Int]` is a finite map whose `Int` values wrap. The console
output and the `toString` of the final list are left out: `FinalRes` carries the list itself.
-/
set_option autoImplicit false
set_option maxHeartbeats 250000

namespace SbtExample.WordCount
open Tally MachineInt ScatterGather

/-- An `Array[String]`: the length of an array is an `Int`. -/
structure WordArray where
  words : List String
  length_lt : words.length < 2 ^ 31

abbrev HashMap : Type := Table String Int32

/-- `ArrayOps.slice(from, until)`, which clamps its bounds and never throws. -/
def slice (data : List String) (start stop : Int32) : List String :=
  let lo := max start.toInt 0
  let hi := min (max stop.toInt 0) data.length
  (data.drop lo.toNat).take (hi - lo).toNat

structure FinalRes where
  du : Int64
  res : List (String × Int32)

/-! ## Worker -/

def wordCount (data : List String) : HashMap :=
  data.foldl (fun count word =>
    let numExisted := getOrElse count word 0
    let newNum := numExisted + 1
    put count word newNum) ∅

/-! ## Master -/

structure Master where
  dataArray : WordArray
  numWorker : Int32
  start : Int64
  totalRes : HashMap
  receivedMsg : Int32

def Master.new (dataArray : WordArray) (numWorker : Int32) (start : Int64) : Master :=
  ⟨dataArray, numWorker, start, ∅, 0⟩

def Master.sumSize (m : Master) : Int32 := Int32.ofNat m.dataArray.words.length

def Master.jobPerWork (m : Master) : Int32 := m.sumSize / m.numWorker

def Master.endIndex (m : Master) (i : Int32) : Int32 :=
  if i = m.numWorker then m.sumSize - 1 else i * m.jobPerWork

def Master.sendData (m : Master) (i : Int32) : List String :=
  slice m.dataArray.words ((i - 1) * m.jobPerWork) (m.endIndex i)

/-- `case Map`: the `Task`s for the router, in the order of the loop. -/
def Master.map (m : Master) : List (List String) := (toRange 1 m.numWorker).map m.sendData

def mergeRes (allData partData : HashMap) : HashMap :=
  (toList partData).foldl (fun allData a =>
    let numExisted := getOrElse allData a.1 0
    let newNum := numExisted + a.2
    put allData a.1 newNum) allData

/-- `case Reduce(partData)`, with the clock read when the last part arrives; a `FinalRes` goes to
the listener and is followed by `context.stop(self)`. -/
def Master.reduce (m : Master) (now : Int64) (partData : HashMap) : Master × Option FinalRes :=
  let totalRes := mergeRes m.totalRes partData
  let receivedMsg := m.receivedMsg + 1
  ({ m with totalRes := totalRes, receivedMsg := receivedMsg },
    if receivedMsg = m.numWorker then some ⟨now - m.start, toList totalRes⟩ else none)

/-! ## The system -/

def protocol : Protocol Master (List String) HashMap Int64 FinalRes where
  scatter := Master.map
  work := wordCount
  gather := Master.reduce

abbrev System : Type := State Master (List String) HashMap FinalRes

/-- `calcultate()`: the master is created and sent one `Map`. -/
def calcultate (dataArray : WordArray) (numWorker : Int32) (start : Int64) : System :=
  initial (Master.new dataArray numWorker start)

abbrev Reaches (dataArray : WordArray) (numWorker : Int32) (start : Int64) (s : System) : Prop :=
  Transition.Reachable (step protocol) (calcultate dataArray numWorker start) s

end SbtExample.WordCount
