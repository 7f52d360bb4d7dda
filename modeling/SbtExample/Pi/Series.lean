import SbtExample.Pi.Program

/-! # The series behind the computation

Up to `nrOfMessages * nrOfElements = 2 ^ 30` no `Int` expression wraps: the ranges of the messages,
laid end to end, count from `0`, and the term at index `i` is the `i`-th term of the Leibniz series.
-/
set_option autoImplicit false
set_option maxHeartbeats 250000

namespace SbtExample.Pi
open MachineInt

def leibnizTerm (i : ℕ) : ℚ := 4 * (-1) ^ i / (2 * i + 1)

def leibniz (n : ℕ) : ℚ := ((List.range n).map leibnizTerm).sum

/-! ## One term -/

/-- `4.0 * (1 - (i % 2) * 2) / (2 * i + 1)`, operation by operation. -/
structure TermFits (i : Int32) : Prop where
  parity : (i % 2).toInt = i.toInt.tmod 2
  twice : (i % 2 * 2).toInt = (i % 2).toInt * 2
  sign : (1 - i % 2 * 2).toInt = 1 - (i % 2 * 2).toInt
  double : (2 * i).toInt = 2 * i.toInt
  divisor : (2 * i + 1).toInt = (2 * i).toInt + 1

/-- Without a wrap the term is the one that the expression shows. -/
theorem TermFits.term_eq {i : Int32} (h : TermFits i) :
    term i = 4 * ((1 - i.toInt.tmod 2 * 2 : ℤ) : ℚ) / ((2 * i.toInt + 1 : ℤ) : ℚ) := by
  rw [term, h.sign, h.twice, h.parity, h.divisor, h.double]

theorem termFits_of_lt {i : Int32} (h : 0 ≤ i.toInt) (h' : i.toInt < 2 ^ 30) : TermFits i := by
  have hmod : (i % 2).toInt = i.toInt % 2 := by rw [toInt_mod h, toInt_two]
  have htwice : (i % 2 * 2).toInt = (i % 2).toInt * 2 := by
    rw [toInt_mul (by rw [hmod, toInt_two]; omega) (by rw [hmod, toInt_two]; omega), toInt_two]
  have hdouble : (2 * i).toInt = 2 * i.toInt := by
    rw [toInt_mul (by rw [toInt_two]; omega) (by rw [toInt_two]; omega), toInt_two]
  exact
    { parity := by rw [Int32.toInt_mod, toInt_two]
      twice := htwice
      sign := by
        rw [toInt_sub (by rw [htwice, hmod, Int32.toInt_one]; omega)
          (by rw [htwice, hmod, Int32.toInt_one]; omega), Int32.toInt_one]
      double := hdouble
      divisor := by
        rw [toInt_add (by rw [hdouble, Int32.toInt_one]; omega)
          (by rw [hdouble, Int32.toInt_one]; omega), Int32.toInt_one] }

theorem neg_one_pow_eq (k : ℕ) : ((1 - (k : ℤ) % 2 * 2 : ℤ) : ℚ) = (-1) ^ k := by
  rcases Nat.even_or_odd' k with ⟨c, rfl | rfl⟩
  · have h : ((2 * c : ℕ) : ℤ) % 2 = 0 := by omega
    rw [h, pow_mul]
    norm_num
  · have h : ((2 * c + 1 : ℕ) : ℤ) % 2 = 1 := by omega
    rw [h, pow_succ, pow_mul]
    norm_num

theorem term_eq (i : Int32) (k : ℕ) (hi : i.toInt = k) (hk : k < 2 ^ 30) :
    term i = leibnizTerm k := by
  have hfits : TermFits i := termFits_of_lt (by omega) (by omega)
  rw [hfits.term_eq, hi, Int.tmod_eq_emod_of_nonneg (Int.natCast_nonneg k), neg_one_pow_eq,
    leibnizTerm]
  push_cast
  rfl

/-! ## The ranges of the messages -/

theorem range_mul (m e : ℕ) :
    ((List.range m).flatMap fun i => (List.range e).map fun j => i * e + j) =
      List.range (m * e) := by
  induction m with
  | zero => simp
  | succ m ih =>
    rw [List.range_succ, List.flatMap_append, ih, Nat.succ_mul, List.range_add,
      List.flatMap_singleton]

/-- Without a wrap at its end the loop runs over the indices of the message. -/
theorem Work.indices_toInt (w : Work)
    (stop : (w.start + w.nrOfElements).toInt = w.start.toInt + w.nrOfElements.toInt) :
    w.indices.map Int32.toInt =
      (List.range w.nrOfElements.toInt.toNat).map fun j : ℕ => w.start.toInt + (j : ℤ) := by
  rw [Work.indices, untilRange_toInt, stop, add_sub_cancel_left]

section Ranges
variable (m : Master) (hM : 1 ≤ m.nrOfMessages) (hE : 1 ≤ m.nrOfElements)
  (hbound : m.nrOfMessages.toInt * m.nrOfElements.toInt ≤ 2 ^ 30)

theorem index_le {a b : ℕ} {i : ℕ} (hi : i < a) (h : a * b ≤ 2 ^ 30) : i * b + b ≤ 2 ^ 30 := by
  calc i * b + b = (i + 1) * b := (Nat.succ_mul i b).symm
    _ ≤ a * b := Nat.mul_le_mul_right b hi
    _ ≤ 2 ^ 30 := h

include hM hE hbound in
theorem total_le : m.nrOfMessages.toInt.toNat * m.nrOfElements.toInt.toNat ≤ 2 ^ 30 := by
  have h1 := one_le_iff.mp hM
  have h2 := one_le_iff.mp hE
  zify
  rw [Int.toNat_of_nonneg (by omega), Int.toNat_of_nonneg (by omega)]
  exact hbound

theorem messages_eq : m.calculate =
    (List.range m.nrOfMessages.toInt.toNat).map fun i =>
      (⟨Int32.ofNat i * m.nrOfElements, m.nrOfElements⟩ : Work) := by
  rw [Master.calculate, untilRange, List.map_map, Int32.toInt_zero, Int.sub_zero]
  apply List.map_congr_left
  intro i _
  simp only [Function.comp_apply, Int32.zero_add]

include hM hE hbound in
theorem indices_toInt {i : ℕ} (hi : i < m.nrOfMessages.toInt.toNat) :
    (Work.indices ⟨Int32.ofNat i * m.nrOfElements, m.nrOfElements⟩).map Int32.toInt =
      (List.range m.nrOfElements.toInt.toNat).map fun j : ℕ =>
        ((i * m.nrOfElements.toInt.toNat + j : ℕ) : ℤ) := by
  have h1 := one_le_iff.mp hM
  have h2 := one_le_iff.mp hE
  have hlt := m.nrOfMessages.toInt_lt
  have hle := index_le hi (total_le m hM hE hbound)
  have hE' : ((m.nrOfElements.toInt.toNat : ℕ) : ℤ) = m.nrOfElements.toInt := by omega
  have hprod : (Int32.ofNat i).toInt * m.nrOfElements.toInt =
      ((i * m.nrOfElements.toInt.toNat : ℕ) : ℤ) := by
    rw [toInt_ofNat (by omega)]
    push_cast
    rw [hE']
  have hstart : (Int32.ofNat i * m.nrOfElements).toInt =
      ((i * m.nrOfElements.toInt.toNat : ℕ) : ℤ) := by
    rw [toInt_mul (by omega) (by omega), hprod]
  have hstop : (Int32.ofNat i * m.nrOfElements + m.nrOfElements).toInt =
      (Int32.ofNat i * m.nrOfElements).toInt + m.nrOfElements.toInt :=
    toInt_add (by omega) (by omega)
  rw [Work.indices_toInt ⟨Int32.ofNat i * m.nrOfElements, m.nrOfElements⟩ hstop]
  apply List.map_congr_left
  intro j _
  rw [hstart]
  push_cast
  ring

include hM hE hbound in
/-- The ranges of the messages partition `0 .. nrOfMessages * nrOfElements - 1`. -/
theorem indices_partition :
    (m.calculate.flatMap Work.indices).map Int32.toInt =
      (List.range (m.nrOfMessages.toInt.toNat * m.nrOfElements.toInt.toNat)).map
        fun k : ℕ => (k : ℤ) := by
  rw [messages_eq, List.map_flatMap, List.flatMap_map, ← range_mul, List.map_flatMap]
  apply List.flatMap_congr
  intro i hi
  rw [indices_toInt m hM hE hbound (List.mem_range.mp hi), List.map_map]
  rfl

end Ranges

/-! ## The sum -/

theorem calculatePiFor_eq_sum (w : Work) : calculatePiFor w = (w.indices.map term).sum := by
  have h : ∀ (l : List Int32) (acc : ℚ),
      l.foldl (fun acc i => acc + term i) acc = acc + (l.map term).sum := by
    intro l
    induction l with
    | nil => intro acc; simp
    | cons i l ih =>
      intro acc
      rw [List.foldl_cons, ih, List.map_cons, List.sum_cons]
      ring
  rw [calculatePiFor, h, zero_add]

/-- The sum over all the messages is a partial sum of the series. -/
theorem calculate_sum (m : Master) (hM : 1 ≤ m.nrOfMessages) (hE : 1 ≤ m.nrOfElements)
    (hbound : m.nrOfMessages.toInt * m.nrOfElements.toInt ≤ 2 ^ 30) :
    (m.calculate.map calculatePiFor).sum =
      leibniz (m.nrOfMessages.toInt.toNat * m.nrOfElements.toInt.toNat) := by
  have hterm : ∀ i ∈ m.calculate.flatMap Work.indices, term i = leibnizTerm i.toInt.toNat := by
    intro i hi
    have hmem := List.mem_map_of_mem (f := Int32.toInt) hi
    rw [indices_partition m hM hE hbound] at hmem
    obtain ⟨k, hk, he⟩ := List.mem_map.mp hmem
    have hlt := List.mem_range.mp hk
    have hle := total_le m hM hE hbound
    rw [term_eq i k he.symm (by omega), ← he, Int.toNat_natCast]
  have hflat : (m.calculate.map calculatePiFor).sum =
      ((m.calculate.flatMap Work.indices).map term).sum := by
    rw [List.map_flatMap, List.flatMap, List.sum_flatten, List.map_map]
    congr 1
    exact List.map_congr_left fun w _ => calculatePiFor_eq_sum w
  have hindex : (m.calculate.flatMap Work.indices).map (fun i => leibnizTerm i.toInt.toNat) =
      ((m.calculate.flatMap Work.indices).map Int32.toInt).map fun k => leibnizTerm k.toNat := by
    rw [List.map_map]
    rfl
  rw [hflat, List.map_congr_left hterm, hindex, indices_partition m hM hE hbound, List.map_map,
    leibniz]
  rfl

end SbtExample.Pi
