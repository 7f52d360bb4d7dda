import SbtExample.Pi.Series

/-! # Runs of the computation of pi

The master's `pi` is a running total and `nrOfResults` counts the results, in every order of the
messages and of the results.
-/
set_option autoImplicit false
set_option maxHeartbeats 250000

namespace SbtExample.Pi
open MachineInt ScatterGather

/-! ## The master as a running total -/

theorem scatter_length (nrOfWorkers nrOfMessages nrOfElements : Int32) (start : Int64) :
    (protocol.scatter (Master.new nrOfWorkers nrOfMessages nrOfElements start)).length =
      nrOfMessages.toInt.toNat := by
  change (Master.calculate (Master.new nrOfWorkers nrOfMessages nrOfElements start)).length = _
  rw [messages_eq, List.length_map, List.length_range]
  rfl

/-- The master's `pi` is a running total, and `nrOfResults` counts up to `nrOfMessages`. -/
def counter (nrOfWorkers nrOfMessages nrOfElements : Int32) (start : Int64)
    (h : 1 ≤ nrOfMessages) :
    Counter protocol (Master.new nrOfWorkers nrOfMessages nrOfElements start) ℚ where
  count := Master.nrOfResults
  goal := Master.nrOfMessages
  total := Master.pi
  value := id
  report m now r := ⟨m.pi + r, now - m.start⟩
  Reports a total := a.pi = total
  one_le := h
  scatter_length := scatter_length nrOfWorkers nrOfMessages nrOfElements start
  count_init := rfl
  total_init := rfl
  count_gather _ _ _ := rfl
  goal_gather _ _ _ := rfl
  total_gather _ _ _ := rfl
  output _ _ _ := rfl
  reports _ _ _ := rfl

def lawful (nrOfWorkers nrOfMessages nrOfElements : Int32) (start : Int64)
    (h : 1 ≤ nrOfMessages) :
    Lawful protocol (Master.new nrOfWorkers nrOfMessages nrOfElements start) ℚ :=
  (counter nrOfWorkers nrOfMessages nrOfElements start h).lawful

/-! ## Every order of messages and results -/

/-- Safety of one state: `outputs` holds the approximations sent, `gathered` the numbers of the
messages whose `Result` has been received. -/
structure Safe (nrOfMessages nrOfElements : Int32) (s : System) : Prop where
  nrOfResults : s.coordinator.nrOfResults.toInt = s.gathered.length
  sent_once : s.outputs.length ≤ 1
  sent_last : ∀ a ∈ s.outputs, s.gathered.Perm (List.range nrOfMessages.toInt.toNat) ∧
    s.coordinator.nrOfResults = nrOfMessages
  sent_finally : s.started = true → s.tasks = [] → s.replies = [] → ∃ a, s.outputs = [a]
  value : ∀ a ∈ s.outputs, a.pi = leibniz (nrOfMessages.toInt.toNat * nrOfElements.toInt.toNat)

theorem safe_of_reaches {nrOfWorkers nrOfMessages nrOfElements : Int32} {start : Int64} {s : System}
    (hM : 1 ≤ nrOfMessages) (hE : 1 ≤ nrOfElements)
    (hbound : nrOfMessages.toInt * nrOfElements.toInt ≤ 2 ^ 30)
    (hs : Reaches nrOfWorkers nrOfMessages nrOfElements start s) :
    Safe nrOfMessages nrOfElements s := by
  have hi := inv_reachable (L := lawful nrOfWorkers nrOfMessages nrOfElements start hM) hs
  have h1 := one_le_iff.mp hM
  have hcount : s.coordinator.nrOfResults.toInt.toNat = s.gathered.length := hi.count
  have hpos : 0 ≤ s.coordinator.nrOfResults.toInt := hi.ok.2
  have htotal : (lawful nrOfWorkers nrOfMessages nrOfElements start hM).grandTotal =
      leibniz (nrOfMessages.toInt.toNat * nrOfElements.toInt.toNat) :=
    calculate_sum (Master.new nrOfWorkers nrOfMessages nrOfElements start) hM hE hbound
  exact
    { nrOfResults := by omega
      sent_once := hi.outputs_length_le
      sent_last := fun a ha => by
        have hall := (hi.gathered_of_output ha).2.2
        rw [scatter_length] at hall
        have hlen := hall.length_eq
        rw [List.length_range] at hlen
        exact ⟨hall, eq_of_toInt (by omega)⟩
      sent_finally := hi.output_of_empty
      value := fun a ha => htotal ▸ hi.output_reports ha }

/-- The ranges partition the indices; every run ends, and when nothing is left to do it has sent one
approximation: after the last result, and its value is the partial sum of the series. -/
theorem pi_protocol (nrOfWorkers nrOfMessages nrOfElements : Int32) (hM : 1 ≤ nrOfMessages)
    (hE : 1 ≤ nrOfElements) (hbound : nrOfMessages.toInt * nrOfElements.toInt ≤ 2 ^ 30)
    (start : Int64) :
    ((Master.new nrOfWorkers nrOfMessages nrOfElements start).calculate.flatMap
        Work.indices).map Int32.toInt =
      (List.range (nrOfMessages.toInt.toNat * nrOfElements.toInt.toNat)).map
        (fun k : ℕ => (k : ℤ)) ∧
    (∀ s, Reaches nrOfWorkers nrOfMessages nrOfElements start s →
      Safe nrOfMessages nrOfElements s) ∧
    (∀ s, Reaches nrOfWorkers nrOfMessages nrOfElements start s →
      Transition.Quiescent (step protocol) s → ∃ a, s.outputs = [a]) ∧
    (∀ es s, Transition.run (step protocol)
        (calculate nrOfWorkers nrOfMessages nrOfElements start) es = some s →
      es.length ≤ 2 * nrOfMessages.toInt.toNat + 1) := by
  refine ⟨indices_partition (Master.new nrOfWorkers nrOfMessages nrOfElements start) hM hE hbound,
    fun s hs => safe_of_reaches hM hE hbound hs, fun s hs hq => ?_, fun es s hs => ?_⟩
  · obtain ⟨hstarted, htasks, hreplies⟩ := quiescent_empty hq
    exact (safe_of_reaches hM hE hbound hs).sent_finally hstarted htasks hreplies
  · have hlen := run_length (lawful nrOfWorkers nrOfMessages nrOfElements start hM) es s hs
    rwa [scatter_length] at hlen

theorem pi_protocol_main :
    ((Master.new 6 10000 10000 0).calculate.flatMap Work.indices).map Int32.toInt =
      (List.range (10000 * 10000)).map (fun k : ℕ => (k : ℤ)) ∧
    (∀ s, Reaches 6 10000 10000 0 s → Safe 10000 10000 s) ∧
    (∀ s, Reaches 6 10000 10000 0 s →
      Transition.Quiescent (step protocol) s → ∃ a, s.outputs = [a]) ∧
    (∀ es s, Transition.run (step protocol) (calculate 6 10000 10000 0) es = some s →
      es.length ≤ 2 * 10000 + 1) :=
  pi_protocol 6 10000 10000 (by decide) (by decide) (by decide) 0

end SbtExample.Pi
