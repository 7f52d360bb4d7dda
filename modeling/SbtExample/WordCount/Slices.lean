import SbtExample.WordCount.Program

/-! # The slices of the master

Slice number `k` covers the indices from `k * j` to `(k + 1) * j`, with `j = sumSize / numWorker`;
the last one ends at `sumSize - 1`. Laid end to end they are the array without its last word.
-/
set_option autoImplicit false
set_option maxHeartbeats 250000

namespace SbtExample.WordCount
open MachineInt

/-! ## Arithmetic of the bounds -/

theorem slice_eq (data : List String) (start stop : Int32) (a b : ℕ) (ha : start.toInt = a)
    (hb : stop.toInt = b) (hb' : b ≤ data.length) :
    slice data start stop = (data.drop a).take (b - a) := by
  have hlo : (max (a : ℤ) 0).toNat = a := by omega
  have hsize : (min (max (b : ℤ) 0) (data.length : ℤ) - max (a : ℤ) 0).toNat = b - a := by omega
  simp only [slice, ha, hb, hlo, hsize]

theorem chunks_flatten (l : List String) (j k : ℕ) :
    ((List.range k).map fun i => (l.drop (i * j)).take j).flatten = l.take (k * j) := by
  induction k with
  | zero => simp
  | succ k ih =>
    rw [List.range_succ, List.map_append, List.flatten_append, ih, Nat.succ_mul, List.take_add]
    simp

section Slices
variable (m : Master)

theorem sumSize_toInt : m.sumSize.toInt = m.dataArray.words.length :=
  toInt_ofNat m.dataArray.length_lt

theorem jobPerWork_toInt (h : 1 ≤ m.numWorker) :
    m.jobPerWork.toInt =
      ((m.dataArray.words.length / m.numWorker.toInt.toNat : ℕ) : ℤ) := by
  have h1 := one_le_iff.mp h
  have hs := sumSize_toInt m
  rw [Master.jobPerWork, toInt_div (by omega) (by omega), hs]
  have hn : ((m.numWorker.toInt.toNat : ℕ) : ℤ) = m.numWorker.toInt := by omega
  rw [Int.natCast_ediv, hn]

theorem index_le {s n k : ℕ} (hk : k ≤ n) : k * (s / n) ≤ s := by
  calc k * (s / n) ≤ n * (s / n) := Nat.mul_le_mul_right _ hk
    _ ≤ s := Nat.mul_div_le s n

theorem mul_jobPerWork (h : 1 ≤ m.numWorker) (i : Int32) (k : ℕ) (hi : i.toInt = k)
    (hk : k ≤ m.numWorker.toInt.toNat) :
    (i * m.jobPerWork).toInt =
      ((k * (m.dataArray.words.length / m.numWorker.toInt.toNat) : ℕ) : ℤ) := by
  have hle : k * (m.dataArray.words.length / m.numWorker.toInt.toNat) ≤ m.dataArray.words.length :=
    index_le hk
  have hlt := m.dataArray.length_lt
  have hprod : i.toInt * m.jobPerWork.toInt =
      ((k * (m.dataArray.words.length / m.numWorker.toInt.toNat) : ℕ) : ℤ) := by
    rw [hi, jobPerWork_toInt m h]
    push_cast
    ring
  rw [toInt_mul (by omega) (by omega), hprod]

theorem loopVar_toInt {k : ℕ} (hk : k < m.numWorker.toInt.toNat) :
    (1 + Int32.ofNat k).toInt = ((k + 1 : ℕ) : ℤ) := by
  have h := toInt_add_ofNat (a := 1) (b := m.numWorker) (k := k) (by rw [Int32.toInt_one]; omega)
  rw [h, Int32.toInt_one]
  omega

theorem loopVar_pred_toInt {k : ℕ} (hk : k < m.numWorker.toInt.toNat) :
    (1 + Int32.ofNat k - 1).toInt = (k : ℤ) := by
  have h := loopVar_toInt m hk
  have hb := m.numWorker.toInt_lt
  rw [toInt_sub (by rw [h, Int32.toInt_one]; omega) (by rw [h, Int32.toInt_one]; omega), h,
    Int32.toInt_one]
  omega

theorem sendData_inner (h : 1 ≤ m.numWorker) {k : ℕ} (hk : k + 1 < m.numWorker.toInt.toNat) :
    m.sendData (1 + Int32.ofNat k) =
      (m.dataArray.words.drop (k * (m.dataArray.words.length / m.numWorker.toInt.toNat))).take
        (m.dataArray.words.length / m.numWorker.toInt.toNat) := by
  have hi := loopVar_toInt m (Nat.lt_of_succ_lt hk)
  have hne : 1 + Int32.ofNat k ≠ m.numWorker := fun he => by
    rw [he] at hi
    omega
  have hle : (k + 1) * (m.dataArray.words.length / m.numWorker.toInt.toNat) ≤
      m.dataArray.words.length := index_le hk.le
  rw [Master.sendData, Master.endIndex, if_neg hne,
    slice_eq _ _ _ _ _
      (mul_jobPerWork m h _ k (loopVar_pred_toInt m (Nat.lt_of_succ_lt hk)) (by omega))
      (mul_jobPerWork m h _ (k + 1) hi hk.le) hle]
  rw [Nat.succ_mul, Nat.add_sub_cancel_left]

/-- The last slice ends one word before the end of the array. -/
theorem sendData_last (h : 1 ≤ m.numWorker) {k : ℕ} (hk : k + 1 = m.numWorker.toInt.toNat) :
    m.sendData (1 + Int32.ofNat k) =
      (m.dataArray.words.drop (k * (m.dataArray.words.length / m.numWorker.toInt.toNat))).take
        (m.dataArray.words.length - 1 -
          k * (m.dataArray.words.length / m.numWorker.toInt.toNat)) := by
  have h1 := one_le_iff.mp h
  have hk' : k < m.numWorker.toInt.toNat := by omega
  have heq : 1 + Int32.ofNat k = m.numWorker := eq_of_toInt (by rw [loopVar_toInt m hk']; omega)
  have hs := sumSize_toInt m
  have hlt := m.dataArray.length_lt
  have hstart := mul_jobPerWork m h _ k (loopVar_pred_toInt m hk') (by omega)
  have hend : (m.sumSize - 1).toInt = (m.dataArray.words.length : ℤ) - 1 := by
    rw [toInt_sub (by rw [hs, Int32.toInt_one]; omega) (by rw [hs, Int32.toInt_one]; omega), hs,
      Int32.toInt_one]
  rw [Master.sendData, Master.endIndex, if_pos heq]
  by_cases hempty : m.dataArray.words = []
  · simp [slice, hempty]
  · have hpos := List.length_pos_of_ne_nil hempty
    exact slice_eq _ _ _ _ _ hstart (by rw [hend]; omega) (by omega)

theorem map_length (h : 1 ≤ m.numWorker) : m.map.length = m.numWorker.toInt.toNat := by
  have h1 := one_le_iff.mp h
  rw [Master.map, List.length_map, toRange_length, Int32.toInt_one]
  omega

theorem map_eq_range (h : 1 ≤ m.numWorker) :
    m.map = (List.range m.numWorker.toInt.toNat).map fun k => m.sendData (1 + Int32.ofNat k) := by
  have h1 := one_le_iff.mp h
  rw [Master.map, toRange, List.map_map, Int32.toInt_one]
  congr 2
  omega

/-- Laid end to end, the tasks are the array without its last word. -/
theorem map_flatten (h : 1 ≤ m.numWorker) : m.map.flatten = m.dataArray.words.dropLast := by
  have h1 := one_le_iff.mp h
  obtain ⟨k, hk⟩ : ∃ k, m.numWorker.toInt.toNat = k + 1 := ⟨m.numWorker.toInt.toNat - 1, by omega⟩
  have hinner : ∀ i ∈ List.range k, m.sendData (1 + Int32.ofNat i) =
      (m.dataArray.words.drop (i * (m.dataArray.words.length / m.numWorker.toInt.toNat))).take
        (m.dataArray.words.length / m.numWorker.toInt.toNat) := by
    intro i hi
    have := List.mem_range.mp hi
    exact sendData_inner m h (by omega)
  have hbound : k * (m.dataArray.words.length / m.numWorker.toInt.toNat) ≤
      m.dataArray.words.length - 1 := by
    have hall : (k + 1) * (m.dataArray.words.length / (k + 1)) ≤ m.dataArray.words.length :=
      Nat.mul_div_le _ _
    rw [hk]
    rw [Nat.succ_mul] at hall
    cases hj : m.dataArray.words.length / (k + 1) with
    | zero => omega
    | succ j =>
      rw [hj] at hall
      omega
  rw [map_eq_range m h, hk, List.range_succ, List.map_append, List.flatten_append,
    List.map_congr_left hinner, chunks_flatten, List.map_singleton, List.flatten_singleton,
    sendData_last m h hk.symm, ← List.take_add, List.dropLast_eq_take]
  congr 1
  omega

/-! ## What the slices cover -/

theorem sendData_inner_length (h : 1 ≤ m.numWorker) {k : ℕ}
    (hk : k + 1 < m.numWorker.toInt.toNat) :
    (m.sendData (1 + Int32.ofNat k)).length =
      m.dataArray.words.length / m.numWorker.toInt.toNat := by
  have hle : (k + 1) * (m.dataArray.words.length / m.numWorker.toInt.toNat) ≤
      m.dataArray.words.length := index_le hk.le
  rw [Nat.succ_mul] at hle
  rw [sendData_inner m h hk, List.length_take, List.length_drop]
  omega

/-- The `Int` expressions of `jobPerWork` and of the loop, each with its value in `ℤ`. -/
structure Exact : Prop where
  sumSize : m.sumSize.toInt = m.dataArray.words.length
  jobPerWork : (m.sumSize / m.numWorker).toInt = m.sumSize.toInt / m.numWorker.toInt
  last : (m.sumSize - 1).toInt = m.sumSize.toInt - 1
  pred : ∀ i ∈ toRange 1 m.numWorker, (i - 1).toInt = i.toInt - 1
  start : ∀ i ∈ toRange 1 m.numWorker,
    ((i - 1) * m.jobPerWork).toInt = (i - 1).toInt * m.jobPerWork.toInt
  stop : ∀ i ∈ toRange 1 m.numWorker, (i * m.jobPerWork).toInt = i.toInt * m.jobPerWork.toInt

theorem exact_of_one_le (h : 1 ≤ m.numWorker) : Exact m := by
  have h1 := one_le_iff.mp h
  have hs := sumSize_toInt m
  have hlt := m.dataArray.length_lt
  have hloop : ∀ i ∈ toRange 1 m.numWorker, ∃ k < m.numWorker.toInt.toNat,
      i = 1 + Int32.ofNat k := by
    intro i hi
    obtain ⟨k, hk, rfl⟩ := List.mem_map.mp hi
    rw [List.mem_range, Int32.toInt_one] at hk
    exact ⟨k, by omega, rfl⟩
  refine ⟨hs, toInt_div (by omega) (by omega), ?_, ?_, ?_, ?_⟩
  · exact toInt_sub (by rw [hs, Int32.toInt_one]; omega) (by rw [hs, Int32.toInt_one]; omega)
  · intro i hi
    obtain ⟨k, hk, rfl⟩ := hloop i hi
    rw [loopVar_pred_toInt m hk, loopVar_toInt m hk]
    omega
  · intro i hi
    obtain ⟨k, hk, rfl⟩ := hloop i hi
    have hpred := loopVar_pred_toInt m hk
    rw [mul_jobPerWork m h _ k hpred hk.le, hpred, jobPerWork_toInt m h]
    push_cast
    rfl
  · intro i hi
    obtain ⟨k, hk, rfl⟩ := hloop i hi
    have hvar := loopVar_toInt m hk
    rw [mul_jobPerWork m h _ (k + 1) hvar hk, hvar, jobPerWork_toInt m h]
    push_cast
    rfl

end Slices

/-- The slices laid end to end are a prefix of the array that misses one word at most, all but the
last of them have the size of a job, and nothing wraps. -/
theorem slices_partition (dataArray : WordArray) (numWorker : Int32) (start : Int64)
    (h : 1 ≤ numWorker) :
    (Master.new dataArray numWorker start).map.length = numWorker.toInt.toNat ∧
    (Master.new dataArray numWorker start).map.flatten <+: dataArray.words ∧
    dataArray.words.length - 1 ≤ (Master.new dataArray numWorker start).map.flatten.length ∧
    (∀ k slice, (Master.new dataArray numWorker start).map[k]? = some slice →
      k + 1 < numWorker.toInt.toNat →
        slice.length = dataArray.words.length / numWorker.toInt.toNat) ∧
    Exact (Master.new dataArray numWorker start) := by
  have hflat : (Master.new dataArray numWorker start).map.flatten = dataArray.words.dropLast :=
    map_flatten _ h
  refine ⟨map_length _ h, ?_, ?_, ?_, exact_of_one_le _ h⟩
  · rw [hflat]
    exact List.dropLast_prefix dataArray.words
  · rw [hflat, List.length_dropLast]
  · intro k slice hk hlt
    rw [map_eq_range _ h, List.getElem?_map, Option.map_eq_some_iff] at hk
    obtain ⟨i, hi, rfl⟩ := hk
    obtain ⟨-, rfl⟩ := List.getElem?_eq_some_iff.mp hi
    rw [List.getElem_range]
    exact sendData_inner_length _ h hlt

/-- Three words for five workers: four empty slices, then the first two words. -/
theorem slices_partition_three :
    (Master.new ⟨["a", "b", "c"], by decide⟩ 5 0).map.length = (5 : Int32).toInt.toNat ∧
    (Master.new ⟨["a", "b", "c"], by decide⟩ 5 0).map.flatten <+: ["a", "b", "c"] ∧
    ["a", "b", "c"].length - 1 ≤ (Master.new ⟨["a", "b", "c"], by decide⟩ 5 0).map.flatten.length ∧
    (∀ k slice, (Master.new ⟨["a", "b", "c"], by decide⟩ 5 0).map[k]? = some slice →
      k + 1 < (5 : Int32).toInt.toNat →
        slice.length = ["a", "b", "c"].length / (5 : Int32).toInt.toNat) ∧
    Exact (Master.new ⟨["a", "b", "c"], by decide⟩ 5 0) :=
  slices_partition ⟨["a", "b", "c"], by decide⟩ 5 0 (by decide)

end SbtExample.WordCount
