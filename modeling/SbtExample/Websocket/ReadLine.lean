import SbtExample.Websocket.Draft

/-! # What one call of `readLine` leaves

In terms of the bytes of the buffer: the line ends before the first CR LF between the position and
the limit, and the position moves behind it. The returned buffer is empty when there is none, and
also when the line is.
-/
set_option autoImplicit false
set_option maxHeartbeats 250000

namespace SbtExample.Websocket.Draft
open Delimiter

/-! ## The bytes and the position -/

/-- A CR LF between the position and the limit, with its LF at index `j`. -/
structure EndsLine (buf : ByteBuffer) (j : ℕ) : Prop where
  lower : buf.position < j
  upper : j < buf.limit
  cr : buf.hb[j - 1]? = some cr
  lf : buf.hb[j]? = some lf

/-- The call returned `sbuf` and left `buf'`. -/
structure ReadsLine (buf sbuf buf' : ByteBuffer) : Prop where
  bytes : buf'.hb = buf.hb
  limit : buf'.limit = buf.limit
  line : ∀ j, EndsLine buf j → (∀ i < j, ¬ EndsLine buf i) →
    sbuf.unread = (buf.hb.take (j - 1)).drop buf.position ∧ buf'.position = j + 1
  rest : (∀ j, ¬ EndsLine buf j) → buf'.position = buf.position

theorem endsLine_iff {buf : ByteBuffer} {j : ℕ} :
    EndsLine buf j ↔ ∃ k, j = buf.position + k + 1 ∧ At cr lf buf.unread k := by
  constructor
  · intro h
    have hlower := h.lower
    have hupper := h.upper
    refine ⟨j - buf.position - 1, by omega, ?_, ?_⟩
    · rw [ByteBuffer.getElem?_unread, if_pos (by omega), ← h.cr]
      congr 1
      omega
    · rw [ByteBuffer.getElem?_unread, if_pos (by omega), ← h.lf]
      congr 1
      omega
  · rintro ⟨k, rfl, hcr, hlf⟩
    rw [ByteBuffer.getElem?_unread] at hcr hlf
    have hupper : buf.position + (k + 1) < buf.limit := by
      by_contra hnone
      rw [if_neg hnone] at hlf
      cases hlf
    rw [if_pos (by omega)] at hcr hlf
    exact ⟨by omega, by omega, hcr, hlf⟩

theorem free_iff_not_endsLine {buf : ByteBuffer} :
    Free cr lf buf.unread ↔ ∀ j, ¬ EndsLine buf j := by
  simp only [free_iff_not_at, endsLine_iff, not_exists, not_and]
  constructor
  · rintro h j k rfl
    exact h k
  · intro h k
    exact h _ k rfl

theorem take_unread {buf : ByteBuffer} {l t : List Int8} (h : buf.unread = l ++ t) :
    (buf.hb.take (buf.position + l.length)).drop buf.position = l := by
  have hle : buf.position + l.length ≤ buf.limit := by
    have hlen := congrArg List.length h
    have hposition := buf.position_le
    rw [ByteBuffer.length_unread, ByteBuffer.remaining, List.length_append] at hlen
    omega
  calc (buf.hb.take (buf.position + l.length)).drop buf.position
      = ((buf.hb.take buf.limit).take (buf.position + l.length)).drop buf.position := by
        rw [List.take_take, min_eq_left hle]
    _ = buf.unread.take l.length := by
        rw [List.drop_take, Nat.add_sub_cancel_left, ByteBuffer.unread]
    _ = l := by rw [h, List.take_left]

theorem LineRead.readsLine {buf sbuf buf' : ByteBuffer} (h : LineRead buf (sbuf, buf')) :
    ReadsLine buf sbuf buf' := by
  cases h with
  | line _ _ hfree hunread hhb hlimit hposition =>
    refine ⟨hhb, hlimit, fun j hj hfirst => ?_, fun hnone => ?_⟩
    · obtain ⟨k, rfl, hk⟩ := endsLine_iff.mp hj
      rw [hunread] at hk
      have hlen : k = sbuf.unread.length := by
        refine first_at (by decide) hfree hk fun i hi hat => ?_
        exact hfirst (buf.position + i + 1) (by omega) (endsLine_iff.mpr ⟨i, rfl, hunread ▸ hat⟩)
      subst hlen
      rw [List.append_assoc] at hunread
      exact ⟨(take_unread hunread).symm, hposition⟩
    · have hfree' := free_iff_not_endsLine.mpr hnone
      rw [hunread] at hfree'
      exact absurd hfree' (not_free_of_delimiter _ _)
  | rest _ hfree hsbuf hpassed =>
    refine ⟨rfl, rfl, fun j hj _ => ?_, fun _ => rfl⟩
    exact absurd hj (free_iff_not_endsLine.mp hfree j)

/-- For every content, position and limit. -/
theorem read_line_exact (buf : ByteBuffer) :
    ∃ sbuf buf', readLine buf = .ok (sbuf, buf') ∧ ReadsLine buf sbuf buf' := by
  obtain ⟨⟨sbuf, buf'⟩, hr, hread⟩ := readLine_spec buf
  exact ⟨sbuf, buf', hr, hread.readsLine⟩

/-! ## Incomplete and empty lines -/

/-- The returned buffers differ in their readable bytes. -/
def Differ (b₁ b₂ : ByteBuffer) : Prop :=
  ∃ r₁ r₂, readLine b₁ = .ok r₁ ∧ readLine b₂ = .ok r₂ ∧ r₁.1.unread ≠ r₂.1.unread

theorem readLine_of_free {buf : ByteBuffer} (h : Free cr lf buf.unread) :
    ∃ r, readLine buf = .ok r ∧ r.1.unread = [] := by
  obtain ⟨r, hr, hread⟩ := readLine_spec buf
  cases hread with
  | line sbuf buf' hfree hunread hhb hlimit hposition =>
    rw [hunread] at h
    exact absurd h (not_free_of_delimiter _ _)
  | rest sbuf hfree hsbuf hpassed => exact ⟨_, hr, hsbuf⟩

theorem readLine_of_not_free {buf : ByteBuffer} (h : ¬ Free cr lf buf.unread) :
    ∃ r t, readLine buf = .ok r ∧ Free cr lf r.1.unread ∧
      buf.unread = r.1.unread ++ [cr, lf] ++ t := by
  obtain ⟨r, hr, hread⟩ := readLine_spec buf
  cases hread with
  | line sbuf buf' hfree hunread hhb hlimit hposition =>
    exact ⟨_, buf'.unread, hr, hfree, hunread⟩
  | rest sbuf hfree hsbuf hpassed => exact absurd hfree h

/-- A line is told from an incomplete one exactly when it is not empty. -/
theorem incomplete_line_recognisable_iff (b₁ b₂ : ByteBuffer) (h₁ : Free cr lf b₁.unread)
    (h₂ : ¬ Free cr lf b₂.unread) : Differ b₁ b₂ ↔ ¬ [cr, lf] <+: b₂.unread := by
  obtain ⟨r₁, hr₁, hempty⟩ := readLine_of_free h₁
  obtain ⟨r₂, t, hr₂, hfree, hline⟩ := readLine_of_not_free h₂
  have hdiffer : Differ b₁ b₂ ↔ r₂.1.unread ≠ [] := by
    constructor
    · rintro ⟨r₁', r₂', hr₁', hr₂', hne⟩ hnil
      cases hr₁.symm.trans hr₁'
      cases hr₂.symm.trans hr₂'
      exact hne (hempty.trans hnil.symm)
    · exact fun hne => ⟨r₁, r₂, hr₁, hr₂, fun heq => hne (heq ▸ hempty)⟩
  rw [hdiffer, not_iff_not]
  constructor
  · intro hnil
    rw [hline, hnil]
    exact ⟨t, rfl⟩
  · rintro ⟨t', ht'⟩
    rw [hline] at ht'
    exact (line_unique (by decide) free_nil hfree ht').1.symm

theorem incomplete_line_recognisable_iff_letter :
    Differ (.wrap [120]) (.wrap [120, 13, 10]) ↔
      ¬ [cr, lf] <+: (ByteBuffer.wrap [120, 13, 10]).unread :=
  incomplete_line_recognisable_iff (.wrap [120]) (.wrap [120, 13, 10])
    (by unfold Free; decide) (by unfold Free; decide)

/-- An empty line, which ends a handshake, is returned as an exhausted buffer. -/
theorem empty_line_unrecognised :
    ¬ ∀ b₁ b₂ : ByteBuffer, Free cr lf b₁.unread → ¬ Free cr lf b₂.unread → Differ b₁ b₂ := by
  intro h
  obtain ⟨r₁, r₂, hr₁, hr₂, hne⟩ := h (.wrap []) (.wrap [13, 10]) (by unfold Free; decide)
    (by unfold Free; decide)
  have hincomplete : readLine (.wrap []) = .ok (.allocate 0, .wrap []) := by
    rw [readLine, readLine.loop, if_neg (by decide)]
    rfl
  have hempty : ∃ line rest, readLine (.wrap [13, 10]) = .ok (line, rest) ∧ line.unread = [] := by
    rw [readLine, loop_step rfl rfl, if_neg (by decide), loop_step rfl rfl, if_pos (by decide)]
    exact ⟨_, _, rfl, rfl⟩
  obtain ⟨line, rest, hline, hnil⟩ := hempty
  cases hincomplete.symm.trans hr₁
  cases hline.symm.trans hr₂
  exact hne hnil.symm

end SbtExample.Websocket.Draft
