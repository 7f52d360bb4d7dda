import SbtExample.Benchmark.Counting

/-! # What remains from round to round

For a burst size that need not be positive. A positive one takes the remaining value down to 0. With
another one nothing is sent, and from 0 the remaining value goes around `Int` until it is 0 again.
-/
set_option autoImplicit false
set_option maxHeartbeats 250000

namespace SbtExample.Benchmark
open MachineInt

section Rounds
variable {total burst : Int32}

/-- What remains after `k` batches. -/
def remainder (total burst : Int32) : ℕ → Int32
  | 0 => total
  | k + 1 => (Sender.new total burst).afterBatch (remainder total burst k)

/-- The payloads in the first `k` batches. -/
def payloads (total burst : Int32) : ℕ → ℕ
  | 0 => 0
  | k + 1 => payloads total burst k +
      ((Sender.new total burst).sendBatch (remainder total burst k)).length

/-- With whole bursts the remainder falls to 0, and nothing is lost. -/
theorem remainder_of_pos (htotal : 0 ≤ total.toInt) (hburst : 1 ≤ burst.toInt) (k : ℕ) :
    0 ≤ (remainder total burst k).toInt ∧
      (payloads total burst k : ℤ) = total.toInt - (remainder total burst k).toInt ∧
      ((remainder total burst k).toInt = 0 ∨
        (remainder total burst k).toInt ≤ total.toInt - k) := by
  induction k with
  | zero => simp [remainder, payloads, htotal]
  | succ k ih =>
    obtain ⟨hnonneg, hsent, hle⟩ := ih
    have hb : (Sender.new total burst).burstSize.toInt = burst.toInt := rfl
    rw [remainder, payloads, afterBatch_toInt _ _ hnonneg hburst, sendBatch_eq,
      List.length_replicate, hb]
    push_cast
    omega

theorem exists_remainder_zero_of_pos (htotal : 0 ≤ total.toInt) (hburst : 1 ≤ burst.toInt) :
    ∃ k, remainder total burst (k + 1) = 0 := by
  refine ⟨total.toInt.toNat, eq_of_toInt ?_⟩
  obtain ⟨hnonneg, -, hle⟩ := remainder_of_pos htotal hburst (total.toInt.toNat + 1)
  rw [Int32.toInt_zero]
  omega

/-- Without a positive burst size no payload is sent. -/
theorem payloads_of_nonpos (hburst : burst.toInt ≤ 0) (k : ℕ) : payloads total burst k = 0 := by
  induction k with
  | zero => rfl
  | succ k ih =>
    rw [payloads, ih, sendBatch_eq, List.length_replicate]
    have hb : (Sender.new total burst).burstSize.toInt = burst.toInt := rfl
    omega

theorem afterBatch_of_le {s : Sender} {remaining : Int32}
    (h : remaining.toInt ≤ s.burstSize.toInt) : s.afterBatch remaining = 0 := by
  have hbatch : s.batchSize remaining = remaining :=
    eq_of_toInt ((toInt_min remaining s.burstSize).trans (min_eq_left h))
  rw [Sender.afterBatch, hbatch, Int32.sub_self]

theorem afterBatch_toInt_of_lt {s : Sender} {remaining : Int32}
    (h : s.burstSize.toInt < remaining.toInt) :
    (s.afterBatch remaining).toInt = (remaining.toInt - s.burstSize.toInt).bmod (2 ^ 32) := by
  have hbatch : s.batchSize remaining = s.burstSize :=
    eq_of_toInt ((toInt_min remaining s.burstSize).trans (min_eq_right h.le))
  rw [Sender.afterBatch, hbatch, Int32.toInt_sub]

/-- From 0 the remainder goes around all of `Int` in equal steps, back to 0, unless it has got there
before. -/
theorem exists_remainder_zero_of_zero : ∃ k, remainder 0 burst (k + 1) = 0 := by
  by_contra hnever
  have hround : ∀ k : ℕ, (remainder 0 burst k).toInt = (k * -burst.toInt).bmod (2 ^ 32) := by
    intro k
    induction k with
    | zero => simp [remainder]
    | succ k ih =>
      have hlt : burst.toInt < (remainder 0 burst k).toInt :=
        lt_of_not_ge fun hle => hnever ⟨k, afterBatch_of_le hle⟩
      have hstep := afterBatch_toInt_of_lt (s := .new 0 burst) hlt
      rw [remainder, hstep, ih, Int.bmod_sub_bmod]
      congr 1
      push_cast
      simp only [Sender.new]
      ring
  refine hnever ⟨2 ^ 32 - 1, eq_of_toInt ?_⟩
  have hback := hround (2 ^ 32 - 1 + 1)
  rw [hback, Int32.toInt_zero]
  exact Int.mul_bmod_right (2 ^ 32) (-burst.toInt)

/-- The first round after which nothing remains, if there is one. -/
structure LastRound (total burst : Int32) (k : ℕ) : Prop where
  pos : 0 < k
  zero : remainder total burst k = 0
  first : ∀ j, 0 < j → j < k → remainder total burst j ≠ 0

theorem LastRound.unique {k l : ℕ} (hk : LastRound total burst k) (hl : LastRound total burst l) :
    k = l := by
  rcases Nat.lt_trichotomy k l with hlt | heq | hgt
  · exact absurd hk.zero (hl.first k hk.pos hlt)
  · exact heq
  · exact absurd hl.zero (hk.first l hl.pos hgt)

theorem exists_lastRound (htotal : 0 ≤ total.toInt) (h : 1 ≤ burst ∨ total = 0) :
    ∃ k, LastRound total burst k ∧ (payloads total burst k : ℤ) = total.toInt := by
  have hzero : ∃ k, remainder total burst (k + 1) = 0 := by
    rcases h with hburst | rfl
    · exact exists_remainder_zero_of_pos htotal (one_le_iff.mp hburst)
    · exact exists_remainder_zero_of_zero
  classical
  refine ⟨Nat.find hzero + 1, ⟨Nat.succ_pos _, Nat.find_spec hzero, fun j hj hlt => ?_⟩, ?_⟩
  · obtain ⟨i, rfl⟩ := Nat.exists_eq_succ_of_ne_zero hj.ne'
    exact Nat.find_min hzero (by omega)
  · by_cases hburst : 1 ≤ burst.toInt
    · obtain ⟨-, hsent, -⟩ := remainder_of_pos htotal hburst (Nat.find hzero + 1)
      rw [hsent, Nat.find_spec hzero, Int32.toInt_zero, sub_zero]
    · rcases h with hpos | rfl
      · exact absurd (one_le_iff.mp hpos) hburst
      · rw [payloads_of_nonpos (by omega)]
        rfl

end Rounds

end SbtExample.Benchmark
