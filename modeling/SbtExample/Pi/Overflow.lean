import SbtExample.Pi.Series

/-! # Where the computation of pi wraps

Up to `nrOfMessages * nrOfElements = 2 ^ 30` every `Int` operation of the master and of the workers
has its exact value. Beyond it some message covers the index `2 ^ 30`, unless its bounds have wrapped
already, and there `2 * i` wraps.
-/
set_option autoImplicit false
set_option maxHeartbeats 250000

namespace SbtExample.Pi
open MachineInt

/-! ## The operations -/

structure WorkFits (w : Work) : Prop where
  stop : (w.start + w.nrOfElements).toInt = w.start.toInt + w.nrOfElements.toInt
  terms : ∀ i ∈ w.indices, TermFits i

/-- No operation on the way from `Calculate` to the last `Result` wraps. -/
structure NothingWraps (m : Master) : Prop where
  starts : ∀ i ∈ untilRange 0 m.nrOfMessages,
    (i * m.nrOfElements).toInt = i.toInt * m.nrOfElements.toInt
  works : ∀ w ∈ m.calculate, WorkFits w

theorem not_termFits {i : Int32} (h : 2 ^ 30 ≤ i.toInt) : ¬ TermFits i := by
  intro hi
  have hlt := (2 * i).toInt_lt
  rw [hi.double] at hlt
  omega

/-- The divisor is odd, wrapped or not. -/
theorem divisor_ne_zero (i : Int32) : 2 * i + 1 ≠ 0 := by
  intro h
  have ht := congrArg Int32.toInt h
  rw [Int32.toInt_add, Int32.toInt_mul, Int32.toInt_one, toInt_two, Int32.toInt_zero,
    Int.bmod_add_bmod] at ht
  have hdvd := Int.dvd_of_bmod_eq_zero ht
  omega

/-! ## Below the boundary -/

section Boundary
variable {m : Master} (hM : 1 ≤ m.nrOfMessages) (hE : 1 ≤ m.nrOfElements)

theorem start_toInt {k : ℕ} (hk : k < m.nrOfMessages.toInt.toNat) :
    (0 + Int32.ofNat k).toInt = k := by
  have hlt := m.nrOfMessages.toInt_lt
  rw [Int32.zero_add, toInt_ofNat (by omega)]

include hM hE in
theorem nothingWraps_of_le (hbound : m.nrOfMessages.toInt * m.nrOfElements.toInt ≤ 2 ^ 30) :
    NothingWraps m := by
  have h2 := one_le_iff.mp hE
  have htotal := total_le m hM hE hbound
  have hprod : ∀ k < m.nrOfMessages.toInt.toNat, (k : ℤ) * m.nrOfElements.toInt +
      m.nrOfElements.toInt ≤ 2 ^ 30 := by
    intro k hk
    have hle := index_le hk htotal
    zify at hle
    rwa [Int.toNat_of_nonneg (by omega)] at hle
  have hstart : ∀ k < m.nrOfMessages.toInt.toNat,
      (Int32.ofNat k * m.nrOfElements).toInt = k * m.nrOfElements.toInt := by
    intro k hk
    have hle := hprod k hk
    have hlt := m.nrOfMessages.toInt_lt
    have hnn : 0 ≤ (k : ℤ) * m.nrOfElements.toInt := Int.mul_nonneg (by omega) (by omega)
    have hk' : (Int32.ofNat k).toInt = k := toInt_ofNat (by omega)
    rw [toInt_mul (by rw [hk']; omega) (by rw [hk']; omega), hk']
  constructor
  · intro i hi
    obtain ⟨k, hk, rfl⟩ := List.mem_map.mp hi
    rw [List.mem_range, Int32.toInt_zero, Int.sub_zero] at hk
    rw [start_toInt hk, Int32.zero_add, hstart k hk]
  · intro w hw
    rw [messages_eq] at hw
    obtain ⟨k, hk, rfl⟩ := List.mem_map.mp hw
    rw [List.mem_range] at hk
    have hle := hprod k hk
    have hnn : 0 ≤ (k : ℤ) * m.nrOfElements.toInt := Int.mul_nonneg (by omega) (by omega)
    constructor
    · change (Int32.ofNat k * m.nrOfElements + m.nrOfElements).toInt =
        (Int32.ofNat k * m.nrOfElements).toInt + m.nrOfElements.toInt
      exact toInt_add (by rw [hstart k hk]; omega) (by rw [hstart k hk]; omega)
    · intro i hi
      have hmem := List.mem_map_of_mem (f := Int32.toInt) hi
      rw [indices_toInt m hM hE hbound hk] at hmem
      obtain ⟨j, hj, he⟩ := List.mem_map.mp hmem
      have hindex := index_le hk htotal
      rw [List.mem_range] at hj
      exact termFits_of_lt (by omega) (by omega)

/-! ## Beyond the boundary -/

include hE in
theorem le_of_nothingWraps (h : NothingWraps m) :
    m.nrOfMessages.toInt * m.nrOfElements.toInt ≤ 2 ^ 30 := by
  by_contra hgt
  have h2 := one_le_iff.mp hE
  -- the message that covers the index `2 ^ 30`
  set q : ℕ := 2 ^ 30 / m.nrOfElements.toInt.toNat with hq
  set r : ℕ := 2 ^ 30 % m.nrOfElements.toInt.toNat with hr
  have hpos : 0 < m.nrOfElements.toInt.toNat := by omega
  have hE' : ((m.nrOfElements.toInt.toNat : ℕ) : ℤ) = m.nrOfElements.toInt := by omega
  have hdiv : m.nrOfElements.toInt.toNat * q + r = 2 ^ 30 := Nat.div_add_mod _ _
  have hlt : r < m.nrOfElements.toInt.toNat := Nat.mod_lt _ hpos
  have hindex : (q : ℤ) * m.nrOfElements.toInt + r = 2 ^ 30 := by
    zify at hdiv
    rw [hE'] at hdiv
    rw [mul_comm]
    exact hdiv
  have hqM : q < m.nrOfMessages.toInt.toNat := by
    by_contra hge
    have hle : m.nrOfMessages.toInt ≤ q := by omega
    have hmul : m.nrOfMessages.toInt * m.nrOfElements.toInt ≤ q * m.nrOfElements.toInt :=
      Int.mul_le_mul_of_nonneg_right hle (by omega)
    omega
  have hmem : 0 + Int32.ofNat q ∈ untilRange 0 m.nrOfMessages := by
    refine List.mem_map.mpr ⟨q, ?_, rfl⟩
    rw [List.mem_range, Int32.toInt_zero, Int.sub_zero]
    exact hqM
  have hstart := h.starts _ hmem
  rw [start_toInt hqM, Int32.zero_add] at hstart
  have hw : (⟨Int32.ofNat q * m.nrOfElements, m.nrOfElements⟩ : Work) ∈ m.calculate := by
    rw [messages_eq]
    exact List.mem_map.mpr ⟨q, List.mem_range.mpr hqM, rfl⟩
  have hworks := h.works _ hw
  have hcovered : (2 ^ 30 : ℤ) ∈ (Work.indices
      ⟨Int32.ofNat q * m.nrOfElements, m.nrOfElements⟩).map Int32.toInt := by
    rw [Work.indices_toInt _ hworks.stop]
    exact List.mem_map.mpr ⟨r, List.mem_range.mpr hlt, by rw [hstart, hindex]⟩
  obtain ⟨i, hi, hlarge⟩ := List.mem_map.mp hcovered
  exact not_termFits hlarge.ge (hworks.terms i hi)

end Boundary

/-- No operation wraps exactly up to the boundary, and no divisor is zero anywhere. -/
theorem overflow_boundary (nrOfWorkers nrOfMessages nrOfElements : Int32) (start : Int64)
    (hM : 1 ≤ nrOfMessages) (hE : 1 ≤ nrOfElements) :
    (NothingWraps (Master.new nrOfWorkers nrOfMessages nrOfElements start) ↔
      nrOfMessages.toInt * nrOfElements.toInt ≤ 2 ^ 30) ∧
    ∀ i : Int32, 2 * i + 1 ≠ 0 := by
  refine ⟨?_, divisor_ne_zero⟩
  constructor
  · exact le_of_nothingWraps (m := Master.new nrOfWorkers nrOfMessages nrOfElements start) hE
  · exact nothingWraps_of_le (m := Master.new nrOfWorkers nrOfMessages nrOfElements start) hM hE

theorem overflow_boundary_main :
    (NothingWraps (Master.new 6 10000 10000 0) ↔
      (10000 : Int32).toInt * (10000 : Int32).toInt ≤ 2 ^ 30) ∧ ∀ i : Int32, 2 * i + 1 ≠ 0 :=
  overflow_boundary 6 10000 10000 0 (by decide) (by decide)

end SbtExample.Pi
