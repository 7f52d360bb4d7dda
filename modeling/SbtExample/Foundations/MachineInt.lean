import Mathlib

/-! # 32-bit integers that do not wrap

`Int32` is the Scala and Java `Int`. The rules turn its operations into those of `ℤ` when the exact
result is in range, so that the proofs about loops and counters are done in `ℤ`. `untilRange` and
`toRange` are the Scala ranges `a until b` and `a to b`.
-/
set_option autoImplicit false
set_option maxHeartbeats 250000

namespace SbtExample.MachineInt

/-! ## Operations in range -/

theorem bmod_eq_self {x : ℤ} (h : -2 ^ 31 ≤ x) (h' : x < 2 ^ 31) : x.bmod (2 ^ 32) = x :=
  Int.bmod_eq_of_le h h'

theorem toInt_add {a b : Int32} (h : -2 ^ 31 ≤ a.toInt + b.toInt) (h' : a.toInt + b.toInt < 2 ^ 31) :
    (a + b).toInt = a.toInt + b.toInt := by
  rw [Int32.toInt_add, bmod_eq_self h h']

theorem toInt_sub {a b : Int32} (h : -2 ^ 31 ≤ a.toInt - b.toInt) (h' : a.toInt - b.toInt < 2 ^ 31) :
    (a - b).toInt = a.toInt - b.toInt := by
  rw [Int32.toInt_sub, bmod_eq_self h h']

theorem toInt_mul {a b : Int32} (h : -2 ^ 31 ≤ a.toInt * b.toInt) (h' : a.toInt * b.toInt < 2 ^ 31) :
    (a * b).toInt = a.toInt * b.toInt := by
  rw [Int32.toInt_mul, bmod_eq_self h h']

theorem toInt_div {a b : Int32} (ha : 0 ≤ a.toInt) (hb : 0 < b.toInt) :
    (a / b).toInt = a.toInt / b.toInt := by
  have hle : a.toInt / b.toInt ≤ a.toInt := Int.ediv_le_self _ ha
  have hnn : 0 ≤ a.toInt / b.toInt := Int.ediv_nonneg ha hb.le
  have hlt := a.toInt_lt
  rw [Int32.toInt_div, Int.tdiv_eq_ediv_of_nonneg ha, bmod_eq_self (by omega) (by omega)]

theorem toInt_mod {a b : Int32} (ha : 0 ≤ a.toInt) : (a % b).toInt = a.toInt % b.toInt := by
  rw [Int32.toInt_mod, Int.tmod_eq_emod_of_nonneg ha]

theorem toInt_two : (2 : Int32).toInt = 2 := rfl

theorem toInt_ofNat {n : ℕ} (h : n < 2 ^ 31) : (Int32.ofNat n).toInt = n :=
  Int32.toInt_ofNat_of_lt h

theorem eq_of_toInt {a b : Int32} (h : a.toInt = b.toInt) : a = b := Int32.toInt_inj.mp h

theorem toInt_min (a b : Int32) : (min a b).toInt = min a.toInt b.toInt := by
  change (if a ≤ b then a else b).toInt = _
  by_cases h : a ≤ b
  · rw [if_pos h, min_eq_left (Int32.le_iff_toInt_le.mp h)]
  · have h' := Int32.lt_iff_toInt_lt.mp (Int32.not_le.mp h)
    rw [if_neg h, min_eq_right h'.le]

theorem nonneg_iff {a : Int32} : 0 ≤ a ↔ 0 ≤ a.toInt := by
  rw [Int32.le_iff_toInt_le, Int32.toInt_zero]

theorem one_le_iff {a : Int32} : 1 ≤ a ↔ 1 ≤ a.toInt := by
  rw [Int32.le_iff_toInt_le, Int32.toInt_one]

theorem toInt_succ {a b : Int32} (h : a.toInt < b.toInt) : (a + 1).toInt = a.toInt + 1 := by
  have ha := a.le_toInt
  have hb := b.toInt_lt
  rw [toInt_add (by rw [Int32.toInt_one]; omega) (by rw [Int32.toInt_one]; omega), Int32.toInt_one]

instance instAddCommMonoid : AddCommMonoid Int32 where
  add_assoc := Int32.add_assoc
  zero_add := Int32.zero_add
  add_zero := Int32.add_zero
  add_comm := Int32.add_comm
  nsmul := nsmulRec

theorem nsmul_one_eq_ofNat (n : ℕ) : n • (1 : Int32) = Int32.ofNat n := by
  induction n with
  | zero => rfl
  | succ n ih =>
    rw [succ_nsmul, ih, Int32.ofNat_add]
    rfl

/-! ## Scala ranges -/

def untilRange (a b : Int32) : List Int32 :=
  (List.range (b.toInt - a.toInt).toNat).map fun k => a + Int32.ofNat k

def toRange (a b : Int32) : List Int32 :=
  (List.range (b.toInt - a.toInt + 1).toNat).map fun k => a + Int32.ofNat k

theorem toRange_length (a b : Int32) : (toRange a b).length = (b.toInt - a.toInt + 1).toNat := by
  rw [toRange, List.length_map, List.length_range]

theorem toInt_add_ofNat {a b : Int32} {k : ℕ} (hk : a.toInt + k ≤ b.toInt) :
    (a + Int32.ofNat k).toInt = a.toInt + k := by
  have ha := a.le_toInt
  have hb := b.toInt_lt
  have hk' : (Int32.ofNat k).toInt = (k : ℤ).bmod (2 ^ 32) := Int32.toInt_ofNat'
  rw [Int32.toInt_add, hk', Int.add_bmod_bmod]
  exact bmod_eq_self (by omega) (by omega)

theorem untilRange_toInt (a b : Int32) :
    (untilRange a b).map Int32.toInt =
      (List.range (b.toInt - a.toInt).toNat).map fun k : ℕ => a.toInt + (k : ℤ) := by
  rw [untilRange, List.map_map]
  apply List.map_congr_left
  intro k hk
  have hk' := List.mem_range.mp hk
  exact toInt_add_ofNat (b := b) (by omega)

end SbtExample.MachineInt
