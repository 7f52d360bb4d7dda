import SbtExample.WordCount.Program

/-! # What the maps of the word counter count

`wordCount` and `mergeRes` are runs of bumps, so that in the monoid of amounts the first is a sum of
single ones over the words and the second is addition.
-/
set_option autoImplicit false
set_option maxHeartbeats 250000

namespace SbtExample.WordCount
open Tally MachineInt

theorem wordCount_eq_absorb (data : List String) :
    wordCount data = absorb ∅ (data.map fun w => (w, 1)) := by
  rw [absorb, List.foldl_map]
  rfl

theorem mergeRes_eq_absorb (allData partData : HashMap) :
    mergeRes allData partData = absorb allData (toList partData) := rfl

theorem amounts_wordCount_sum (data : List String) :
    amounts (wordCount data) = (data.map fun w => single (w, (1 : Int32))).sum := by
  rw [wordCount_eq_absorb, amounts_absorb, amounts_empty, zero_add, List.map_map]
  rfl

theorem amounts_mergeRes (allData partData : HashMap) :
    amounts (mergeRes allData partData) = amounts allData + amounts partData := by
  rw [mergeRes_eq_absorb, amounts_absorb_toList]

/-- A word is a key exactly when it occurs, and its value is the number of its occurrences. -/
theorem amounts_wordCount (data : List String) (w : String) :
    amounts (wordCount data) w =
      if w ∈ data then ((Int32.ofNat (data.count w) : Int32) : WithZero Int32) else 0 := by
  rw [amounts_wordCount_sum, sum_single_const, nsmul_one_eq_ofNat]

theorem amounts_wordCount_append (xs ys : List String) :
    amounts (wordCount (xs ++ ys)) = amounts (wordCount xs) + amounts (wordCount ys) := by
  simp only [amounts_wordCount_sum, List.map_append, List.sum_append]

theorem amounts_wordCount_flatten (pieces : List (List String)) :
    (pieces.map fun p => amounts (wordCount p)).sum = amounts (wordCount pieces.flatten) := by
  induction pieces with
  | nil =>
    rw [List.flatten_nil, amounts_wordCount_sum]
    rfl
  | cons p pieces ih =>
    rw [List.map_cons, List.sum_cons, ih, List.flatten_cons, amounts_wordCount_append]

theorem lookup_wordCount (data : List String) (w : String) :
    (wordCount data).lookup w =
      if w ∈ data then some (Int32.ofNat (data.count w)) else none := by
  by_cases hw : w ∈ data
  · rw [if_pos hw, ← amounts_eq_coe, amounts_wordCount, if_pos hw]
  · rw [if_neg hw, ← amounts_eq_zero, amounts_wordCount, if_neg hw]

/-! ## The parts in any order -/

theorem amounts_foldl_mergeRes (parts : List HashMap) (allData : HashMap) :
    amounts (parts.foldl mergeRes allData) = amounts allData + (parts.map amounts).sum := by
  induction parts generalizing allData with
  | nil => rw [List.map_nil, List.sum_nil, add_zero]; rfl
  | cons part parts ih =>
    rw [List.foldl_cons, ih, amounts_mergeRes, List.map_cons, List.sum_cons, add_assoc]

theorem lookup_mergeRes_of_notMem {allData partData : HashMap} {w : String} (h : w ∉ partData) :
    (mergeRes allData partData).lookup w = allData.lookup w := by
  apply lookup_eq_of_amounts
  rw [amounts_mergeRes, Pi.add_apply,
    (amounts_eq_zero partData w).mpr (AList.lookup_eq_none.mpr h), add_zero]

theorem lookup_foldl_wordCount {pieces order : List (List String)} (h : order.Perm pieces)
    (w : String) :
    ((order.map wordCount).foldl mergeRes ∅).lookup w = (wordCount pieces.flatten).lookup w := by
  apply lookup_eq_of_amounts
  rw [amounts_foldl_mergeRes, amounts_empty, zero_add, List.map_map,
    (h.map (amounts ∘ wordCount)).sum_eq]
  exact congrFun (amounts_wordCount_flatten pieces) w

/-- The map-reduce law: the maps of the pieces, merged in any order, are the map of the whole list. A
word is a key exactly when it occurs, and a merge leaves the counts of other words alone. -/
theorem map_reduce_law (pieces order : List (List String)) (h : order.Perm pieces) :
    (∀ w, ((order.map wordCount).foldl mergeRes ∅).lookup w =
      (wordCount pieces.flatten).lookup w) ∧
    (∀ w, w ∈ (order.map wordCount).foldl mergeRes ∅ ↔ w ∈ pieces.flatten) ∧
    ∀ (allData partData : HashMap) (w : String), w ∉ partData →
      (mergeRes allData partData).lookup w = allData.lookup w := by
  refine ⟨lookup_foldl_wordCount h, fun w => ?_, fun _ _ _ hw => lookup_mergeRes_of_notMem hw⟩
  rw [← AList.lookup_isSome, lookup_foldl_wordCount h, lookup_wordCount]
  by_cases hw : w ∈ pieces.flatten
  · simp [hw]
  · simp [hw]

theorem map_reduce_law_hello :
    (∀ w, (([["world"], [], ["hello", "hello"]].map wordCount).foldl mergeRes ∅).lookup w =
      (wordCount [["hello", "hello"], ["world"], []].flatten).lookup w) ∧
    (∀ w, w ∈ ([["world"], [], ["hello", "hello"]].map wordCount).foldl mergeRes ∅ ↔
      w ∈ [["hello", "hello"], ["world"], []].flatten) ∧
    ∀ (allData partData : HashMap) (w : String), w ∉ partData →
      (mergeRes allData partData).lookup w = allData.lookup w :=
  map_reduce_law [["hello", "hello"], ["world"], []] [["world"], [], ["hello", "hello"]] (by decide)

end SbtExample.WordCount
