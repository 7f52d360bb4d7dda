import SbtExample.WordCount.Counting
import SbtExample.WordCount.Slices

/-! # Runs of the word counter

The master's map is a running total of the parts it has merged, and `receivedMsg` their number, in
every order of the tasks and of the replies. What it reports is therefore the count of the slices
laid end to end, which is the count of the array without its last word.
-/
set_option autoImplicit false
set_option maxHeartbeats 250000

namespace SbtExample.WordCount
open Tally MachineInt ScatterGather

/-! ## The master as a running total -/

theorem scatter_length (dataArray : WordArray) (numWorker : Int32) (start : Int64)
    (h : 1 ≤ numWorker) :
    (protocol.scatter (Master.new dataArray numWorker start)).length = numWorker.toInt.toNat :=
  map_length (Master.new dataArray numWorker start) h

/-- The master's map is a running total, and `receivedMsg` counts up to `numWorker`. -/
def counter (dataArray : WordArray) (numWorker : Int32) (start : Int64) (h : 1 ≤ numWorker) :
    Counter protocol (Master.new dataArray numWorker start) (String → WithZero Int32) where
  count := Master.receivedMsg
  goal := Master.numWorker
  total m := amounts m.totalRes
  value := amounts
  report m now r := ⟨now - m.start, toList (mergeRes m.totalRes r)⟩
  Reports f total := ∃ m : HashMap, f.res = toList m ∧ amounts m = total
  one_le := h
  scatter_length := scatter_length dataArray numWorker start h
  count_init := rfl
  total_init := amounts_empty
  count_gather _ _ _ := rfl
  goal_gather _ _ _ := rfl
  total_gather m _ r := amounts_mergeRes m.totalRes r
  output _ _ _ := rfl
  reports m _ r := ⟨mergeRes m.totalRes r, rfl, amounts_mergeRes m.totalRes r⟩

def lawful (dataArray : WordArray) (numWorker : Int32) (start : Int64) (h : 1 ≤ numWorker) :
    Lawful protocol (Master.new dataArray numWorker start) (String → WithZero Int32) :=
  (counter dataArray numWorker start h).lawful

theorem grandTotal_eq (dataArray : WordArray) (numWorker : Int32) (start : Int64)
    (h : 1 ≤ numWorker) :
    (lawful dataArray numWorker start h).grandTotal =
      amounts (wordCount dataArray.words.dropLast) := by
  have hflat : (Master.new dataArray numWorker start).map.flatten = dataArray.words.dropLast :=
    map_flatten (Master.new dataArray numWorker start) h
  rw [← hflat, ← amounts_wordCount_flatten]
  rfl

/-! ## Every order of tasks and replies -/

/-- The words of task number `k`, sent by iteration `k + 1` of the loop. -/
def taskWords (dataArray : WordArray) (numWorker : Int32) (k : ℕ) : List String :=
  (Master.new dataArray numWorker 0).sendData (1 + Int32.ofNat k)

theorem valueOf_eq (dataArray : WordArray) (numWorker : Int32) (start : Int64)
    (h : 1 ≤ numWorker) {k : ℕ} (hk : k < numWorker.toInt.toNat) :
    (lawful dataArray numWorker start h).valueOf k =
      amounts (wordCount (taskWords dataArray numWorker k)) := by
  have hget : (protocol.scatter (Master.new dataArray numWorker start))[k]? =
      some (taskWords dataArray numWorker k) := by
    have hmap : protocol.scatter (Master.new dataArray numWorker start) =
        (List.range numWorker.toInt.toNat).map (taskWords dataArray numWorker) :=
      map_eq_range (Master.new dataArray numWorker start) h
    rw [hmap, List.getElem?_map, List.getElem?_range hk]
    rfl
  rw [Lawful.valueOf, hget]
  rfl

section Runs
variable {dataArray : WordArray} {numWorker : Int32} {start : Int64} {s : System}

theorem gathered_lt (h : 1 ≤ numWorker) (hs : Reaches dataArray numWorker start s) :
    s.gathered.Nodup ∧ ∀ k ∈ s.gathered, k < numWorker.toInt.toNat := by
  have hi := inv_reachable (L := lawful dataArray numWorker start h) hs
  cases hst : s.started with
  | false =>
    rw [hi.waiting hst]
    exact ⟨List.nodup_nil, fun k hk => by cases hk⟩
  | true =>
    have hnum := hi.numbers hst
    rw [scatter_length _ _ _ h] at hnum
    refine ⟨(List.nodup_append.mp (hnum.nodup_iff.mpr List.nodup_range)).2.1, fun k hk => ?_⟩
    exact List.mem_range.mp (hnum.mem_iff.mp (List.mem_append_right _ hk))

theorem totalRes_eq_sum (h : 1 ≤ numWorker) (hs : Reaches dataArray numWorker start s) :
    amounts s.coordinator.totalRes =
      (s.gathered.map fun k => amounts (wordCount (taskWords dataArray numWorker k))).sum := by
  have hi := inv_reachable (L := lawful dataArray numWorker start h) hs
  have hlt := (gathered_lt h hs).2
  rw [show amounts s.coordinator.totalRes = _ from hi.total]
  exact congrArg List.sum
    (List.map_congr_left fun k hk => valueOf_eq dataArray numWorker start h (hlt k hk))

theorem receivedMsg_eq (h : 1 ≤ numWorker) (hs : Reaches dataArray numWorker start s) :
    s.coordinator.receivedMsg.toInt = s.gathered.length := by
  have hi := inv_reachable (L := lawful dataArray numWorker start h) hs
  have hcount : s.coordinator.receivedMsg.toInt.toNat = s.gathered.length := hi.count
  have hpos : 0 ≤ s.coordinator.receivedMsg.toInt := hi.ok.2
  omega

theorem report_lookup (h : 1 ≤ numWorker) (hs : Reaches dataArray numWorker start s)
    {f : FinalRes} (hf : f ∈ s.outputs) (w : String) (c : Int32) :
    (w, c) ∈ f.res ↔
      w ∈ dataArray.words.dropLast ∧ c = Int32.ofNat (dataArray.words.dropLast.count w) := by
  have hi := inv_reachable (L := lawful dataArray numWorker start h) hs
  obtain ⟨m, hm, ht⟩ := hi.output_reports hf
  rw [grandTotal_eq] at ht
  rw [hm, mem_toList, lookup_eq_of_amounts (congrFun ht w), lookup_wordCount]
  by_cases hw : w ∈ dataArray.words.dropLast
  · simp only [hw, if_true, true_and, Option.some.injEq, eq_comm]
  · simp [hw]

end Runs

/-- Safety of one state. The history `gathered` holds the numbers of the tasks whose `Reduce` has
been received, `outputs` the `FinalRes` messages sent. -/
structure Safe (dataArray : WordArray) (numWorker : Int32) (s : System) : Prop where
  totalRes : amounts s.coordinator.totalRes =
    (s.gathered.map fun k => amounts (wordCount (taskWords dataArray numWorker k))).sum
  receivedMsg : s.coordinator.receivedMsg.toInt = s.gathered.length
  received_once : s.gathered.Nodup ∧ ∀ k ∈ s.gathered, k < numWorker.toInt.toNat
  sent_once : s.outputs.length ≤ 1
  sent_last : ∀ f ∈ s.outputs, s.gathered.Perm (List.range numWorker.toInt.toNat)
  sent_finally : s.started = true → s.tasks = [] → s.replies = [] → ∃ f, s.outputs = [f]

/-- Word-count protocol safety and order independence. -/
theorem word_count_protocol (dataArray : WordArray) (numWorker : Int32) (h : 1 ≤ numWorker) :
    (∀ start s, Reaches dataArray numWorker start s → Safe dataArray numWorker s) ∧
    (∀ start start' s s', Reaches dataArray numWorker start s →
      Reaches dataArray numWorker start' s' → ∀ f ∈ s.outputs, ∀ f' ∈ s'.outputs,
        ∀ w c, (w, c) ∈ f.res ↔ (w, c) ∈ f'.res) := by
  refine ⟨fun start s hs => ?_, fun start start' s s' hs hs' f hf f' hf' w c => ?_⟩
  · have hi := inv_reachable (L := lawful dataArray numWorker start h) hs
    exact
      { totalRes := totalRes_eq_sum h hs
        receivedMsg := receivedMsg_eq h hs
        received_once := gathered_lt h hs
        sent_once := hi.outputs_length_le
        sent_last := fun f hf => by
          have hall := (hi.gathered_of_output hf).2.2
          rwa [scatter_length _ _ _ h] at hall
        sent_finally := hi.output_of_empty }
  · rw [report_lookup h hs hf, report_lookup h hs' hf']

/-- `data = "hello world hello"`. -/
def helloWorldArray : WordArray := ⟨["hello", "world", "hello"], by decide⟩

theorem word_count_protocol_hello :
    (∀ start s, Reaches helloWorldArray 2 start s → Safe helloWorldArray 2 s) ∧
    (∀ start start' s s', Reaches helloWorldArray 2 start s → Reaches helloWorldArray 2 start' s' →
      ∀ f ∈ s.outputs, ∀ f' ∈ s'.outputs, ∀ w c, (w, c) ∈ f.res ↔ (w, c) ∈ f'.res) :=
  word_count_protocol helloWorldArray 2 (by decide)

/-! ## The reported counts -/

/-- The report maps every word of the array to the number of its occurrences and has no other
key. -/
def ReportsOccurrences (dataArray : WordArray) (f : FinalRes) : Prop :=
  ∀ w c, (w, c) ∈ f.res ↔ w ∈ dataArray.words ∧ c.toInt = dataArray.words.count w

/-- Every run that reports, reports the occurrences. -/
def CountsEveryWord (dataArray : WordArray) (numWorker : Int32) : Prop :=
  ∀ start s, Reaches dataArray numWorker start s → ∀ f ∈ s.outputs, ReportsOccurrences dataArray f

theorem not_reportsOccurrences {dataArray : WordArray} {numWorker : Int32} {start : Int64}
    {s : System} (hlen : 1 ≤ dataArray.words.length) (h : 1 ≤ numWorker)
    (hs : Reaches dataArray numWorker start s) {f : FinalRes} (hf : f ∈ s.outputs) :
    ¬ ReportsOccurrences dataArray f := by
  intro hr
  have hne := List.length_pos_iff.mp hlen
  -- the last word occurs once less in the reported part of the array
  set w := dataArray.words.getLast hne with hw
  have hcount : dataArray.words.count w = dataArray.words.dropLast.count w + 1 := by
    conv_lhs => rw [← List.dropLast_append_getLast hne]
    rw [List.count_append, ← hw, List.count_singleton_self]
  have hlt := dataArray.length_lt
  have hle := List.count_le_length (a := w) (l := dataArray.words)
  have hfull : (w, Int32.ofNat (dataArray.words.count w)) ∈ f.res :=
    (hr w _).mpr ⟨List.getLast_mem hne, toInt_ofNat (by omega)⟩
  have hpart := ((report_lookup h hs hf w _).mp hfull).2
  have ht := congrArg Int32.toInt hpart
  rw [toInt_ofNat (by omega), toInt_ofNat (by omega)] at ht
  omega

/-- The last word of the array is never counted: no report of any run is right, and some run
reports. -/
theorem word_count_never_exact (dataArray : WordArray) (numWorker : Int32)
    (hlen : 1 ≤ dataArray.words.length) (h : 1 ≤ numWorker) :
    (∀ start s, Reaches dataArray numWorker start s →
      ∀ f ∈ s.outputs, ¬ ReportsOccurrences dataArray f) ∧
    ¬ CountsEveryWord dataArray numWorker := by
  refine ⟨fun start s hs f hf => not_reportsOccurrences hlen h hs hf, fun hall => ?_⟩
  obtain ⟨s, hs, f, hf⟩ := exists_output (lawful dataArray numWorker 0 h)
  have hmem : f ∈ s.outputs := by rw [hf]; exact List.mem_singleton_self f
  exact not_reportsOccurrences hlen h hs hmem (hall 0 s hs f hmem)

/-- `data = "hello"`. -/
def helloArray : WordArray := ⟨["hello"], by decide⟩

theorem word_count_never_exact_hello :
    (∀ start s, Reaches helloArray 4 start s → ∀ f ∈ s.outputs, ¬ ReportsOccurrences helloArray f) ∧
      ¬ CountsEveryWord helloArray 4 :=
  word_count_never_exact helloArray 4 (by decide) (by decide)

/-- With `data = "hello"` and the four workers of `calcultate()` the reported map is empty. -/
theorem hello_not_counted : ¬ CountsEveryWord helloArray 4 := by
  intro hall
  have hrun : (Transition.run (step protocol) (calcultate helloArray 4 0)
      [.start, .work 0, .work 0, .work 0, .work 0,
        .gather 0 0, .gather 0 0, .gather 0 0, .gather 0 0]).map
      (fun s => s.outputs.map FinalRes.res) = some [[]] := by decide
  obtain ⟨s, hs, ho⟩ := Option.map_eq_some_iff.mp hrun
  obtain ⟨f, hf, hres⟩ := List.mem_map.mp (ho ▸ List.mem_singleton_self [])
  have hin : ("hello", (1 : Int32)) ∈ f.res :=
    (hall 0 s ⟨_, hs⟩ f hf "hello" 1).mpr (by decide)
  rw [hres] at hin
  cases hin

end SbtExample.WordCount
