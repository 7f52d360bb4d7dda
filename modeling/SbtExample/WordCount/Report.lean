import SbtExample.WordCount.Runs

/-! # What a run reports

Every run ends, and what it reports by then does not depend on the order of its steps: the distinct
words of the array without its last one, each with the number of its occurrences.
-/
set_option autoImplicit false
set_option maxHeartbeats 250000

namespace SbtExample.WordCount
open Tally MachineInt ScatterGather

/-! ## The words that are counted -/

def occurrences (words : List String) : List (String × Int32) :=
  words.dedup.map fun w => (w, Int32.ofNat (words.count w))

theorem mem_occurrences (words : List String) (w : String) (c : Int32) :
    (w, c) ∈ occurrences words ↔ w ∈ words ∧ c = Int32.ofNat (words.count w) := by
  rw [occurrences, List.mem_map]
  constructor
  · rintro ⟨w', hw, heq⟩
    obtain ⟨rfl, rfl⟩ := Prod.mk.inj heq
    exact ⟨List.mem_dedup.mp hw, rfl⟩
  · rintro ⟨hw, rfl⟩
    exact ⟨w, List.mem_dedup.mpr hw, rfl⟩

theorem nodup_occurrences (words : List String) : (occurrences words).Nodup :=
  (List.nodup_dedup words).map fun _ _ h => congrArg Prod.fst h

/-- No word is counted twice and none is left out. -/
theorem sum_occurrences {words : List String} (h : words.length < 2 ^ 31) :
    ((occurrences words).map fun a => a.2.toInt).sum = words.length := by
  have hcount : ∀ w, (Int32.ofNat (words.count w)).toInt = (words.count w : ℤ) := by
    intro w
    have := List.count_le_length (a := w) (l := words)
    exact toInt_ofNat (by omega)
  rw [occurrences, List.map_map, ← List.sum_map_count_dedup_eq_length words, Nat.cast_list_sum,
    List.map_map]
  exact congrArg List.sum (List.map_congr_left fun w _ => hcount w)

/-! ## Every run -/

section Report
variable {dataArray : WordArray} {numWorker : Int32} {start : Int64} {s : System}

theorem report_perm (h : 1 ≤ numWorker) (hs : Reaches dataArray numWorker start s) {f : FinalRes}
    (hf : f ∈ s.outputs) : f.res.Perm (occurrences dataArray.words.dropLast) := by
  have hi := inv_reachable (L := lawful dataArray numWorker start h) hs
  obtain ⟨m, hm, -⟩ := hi.output_reports hf
  have hnodup : f.res.Nodup := by
    rw [hm]
    exact (nodup_keys_toList m).of_map
  refine (List.perm_ext_iff_of_nodup hnodup (nodup_occurrences _)).mpr fun a => ?_
  rw [mem_occurrences]
  exact report_lookup h hs hf a.1 a.2

/-- A run has no more than two steps for each task and one to begin with. At its end it has reported
once, the distinct words before the last one with their numbers, which add up to all of these
words. -/
theorem runs_report_all_but_last (dataArray : WordArray) (numWorker : Int32) (start : Int64)
    (h : 1 ≤ numWorker) (es : List (Label Int64)) (s : System)
    (hs : Transition.run (step protocol) (calcultate dataArray numWorker start) es = some s) :
    es.length ≤ 2 * numWorker.toInt.toNat + 1 ∧
      (Transition.Quiescent (step protocol) s → ∃ f, s.outputs = [f]) ∧
      ∀ f ∈ s.outputs, f.res.Perm (occurrences dataArray.words.dropLast) ∧
        (f.res.map fun a => a.2.toInt).sum = (dataArray.words.length - 1 : ℕ) := by
  have hreach : Reaches dataArray numWorker start s := ⟨es, hs⟩
  have hi := inv_reachable (L := lawful dataArray numWorker start h) hreach
  refine ⟨?_, fun hq => ?_, fun f hf => ?_⟩
  · have hlength := run_length (lawful dataArray numWorker start h) es s hs
    rwa [scatter_length _ _ _ h] at hlength
  · obtain ⟨hstarted, htasks, hreplies⟩ := quiescent_empty hq
    exact hi.output_of_empty hstarted htasks hreplies
  · have hperm := report_perm h hreach hf
    refine ⟨hperm, ?_⟩
    rw [(hperm.map fun a => a.2.toInt).sum_eq, sum_occurrences, List.length_dropLast]
    rw [List.length_dropLast]
    have := dataArray.length_lt
    omega

end Report

/-- `data = "hello world hello"`: the last word is not counted. -/
theorem runs_report_all_but_last_hello :
    ∃ f : FinalRes, f.res.Perm [("world", 1), ("hello", 1)] := by
  have hrun : (Transition.run (step protocol) (calcultate helloWorldArray 2 0)
      [.start, .work 1, .work 0, .gather 1 0, .gather 0 0]).any
      (fun s => !s.outputs.isEmpty) := by decide
  obtain ⟨s, hs, hsome⟩ := (Option.any_eq_true _ _).mp hrun
  obtain ⟨f, hf⟩ := List.exists_mem_of_ne_nil s.outputs (by simpa using hsome)
  have hperm := ((runs_report_all_but_last helloWorldArray 2 0 (by decide) _ s hs).2.2 f hf).1
  exact ⟨f, hperm.trans (by decide)⟩

end SbtExample.WordCount
