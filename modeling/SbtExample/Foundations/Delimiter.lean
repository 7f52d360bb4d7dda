import Mathlib

/-! # Lists cut at a delimiter of two elements

`Splits a b s lines rest` says that `rest` and the `lines`, each ended by the delimiter `a, b`, make
up `s`, and that the delimiter stands in none of them. As `a` and `b` differ, `s` has one such cut
only, and the cut of a longer list extends that of a shorter one.
-/
set_option autoImplicit false
set_option maxHeartbeats 250000

namespace SbtExample.Delimiter

section Delimiter
variable {α : Type} (a b : α)

def Free (l : List α) : Prop := ¬ [a, b] <:+: l

structure Splits (s : List α) (lines : List (List α)) (rest : List α) : Prop where
  concat : lines.flatMap (· ++ [a, b]) ++ rest = s
  lines_free : ∀ l ∈ lines, Free a b l
  rest_free : Free a b rest

variable {a b}

/-! ## Lists without the delimiter -/

theorem free_nil : Free a b [] := by
  intro h
  have hlen := h.length_le
  simp at hlen

theorem not_free_of_delimiter (l t : List α) : ¬ Free a b (l ++ [a, b] ++ t) :=
  fun h => h ⟨l, t, rfl⟩

theorem free_concat_iff {l : List α} {x : α} :
    Free a b (l ++ [x]) ↔ Free a b l ∧ ¬ (l.getLast? = some a ∧ x = b) := by
  have hsuffix : [a, b] <:+ l ++ [x] ↔ l.getLast? = some a ∧ x = b := by
    constructor
    · rintro ⟨t, ht⟩
      rw [List.append_cons] at ht
      obtain ⟨rfl, hb⟩ := List.append_inj' ht rfl
      exact ⟨List.getLast?_concat .., (List.singleton_inj.mp hb).symm⟩
    · rintro ⟨hlast, rfl⟩
      obtain ⟨t, rfl⟩ := List.getLast?_eq_some_iff.mp hlast
      exact ⟨t, List.append_cons ..⟩
  rw [Free, Free, List.infix_concat_iff, hsuffix, not_or, and_comm]

theorem eq_nil_of_overlap (hab : a ≠ b) {l c t t' : List α} (hfree : Free a b (l ++ c))
    (h : [a, b] ++ t = c ++ ([a, b] ++ t')) : c = [] := by
  match c, h with
  | [], _ => rfl
  | [x], h =>
    have hba := (List.cons.inj (List.cons.inj h).2).1
    exact absurd hba.symm hab
  | x :: y :: c, h =>
    obtain ⟨rfl, hy⟩ := List.cons.inj h
    obtain ⟨rfl, -⟩ := List.cons.inj hy
    have hdelimiter := not_free_of_delimiter (a := a) (b := b) l c
    rw [List.append_assoc] at hdelimiter
    exact absurd hfree hdelimiter

/-- The first delimiter ends the first line. -/
theorem line_unique (hab : a ≠ b) {l l' t t' : List α} (hl : Free a b l) (hl' : Free a b l')
    (h : l ++ [a, b] ++ t = l' ++ [a, b] ++ t') : l = l' ∧ t = t' := by
  rw [List.append_assoc, List.append_assoc] at h
  have heq : l = l' := by
    rcases List.append_eq_append_iff.mp h with ⟨c, rfl, hc⟩ | ⟨c, rfl, hc⟩
    · rw [eq_nil_of_overlap hab hl' hc, List.append_nil]
    · rw [eq_nil_of_overlap hab hl hc, List.append_nil]
  subst heq
  exact ⟨rfl, List.append_cancel_left (List.append_cancel_left h)⟩

/-! ## Positions of the delimiter -/

/-- The delimiter stands in the list with `a` at position `k`. -/
def At (a b : α) (l : List α) (k : ℕ) : Prop := l[k]? = some a ∧ l[k + 1]? = some b

theorem at_iff {l : List α} {k : ℕ} :
    At a b l k ↔ ∃ l₁ l₂, l = l₁ ++ [a, b] ++ l₂ ∧ l₁.length = k := by
  constructor
  · rintro ⟨ha, hb⟩
    obtain ⟨hk, ha⟩ := List.getElem?_eq_some_iff.mp ha
    obtain ⟨hk', hb⟩ := List.getElem?_eq_some_iff.mp hb
    refine ⟨l.take k, l.drop (k + 2), ?_, List.length_take_of_le hk.le⟩
    have hdrop : l.drop k = [a, b] ++ l.drop (k + 2) := by
      rw [List.drop_eq_getElem_cons hk, List.drop_eq_getElem_cons hk', ha, hb]
      rfl
    rw [List.append_assoc, ← hdrop, List.take_append_drop]
  · rintro ⟨l₁, l₂, rfl, rfl⟩
    simp [At]

theorem free_iff_not_at {l : List α} : Free a b l ↔ ∀ k, ¬ At a b l k := by
  constructor
  · intro h k hk
    obtain ⟨l₁, l₂, hl, -⟩ := at_iff.mp hk
    exact h ⟨l₁, l₂, hl.symm⟩
  · rintro h ⟨l₁, l₂, hl⟩
    exact h l₁.length (at_iff.mpr ⟨l₁, l₂, hl.symm, rfl⟩)

/-- The first delimiter stands right behind the first line. -/
theorem first_at (hab : a ≠ b) {l t : List α} (hl : Free a b l) {k : ℕ}
    (hk : At a b (l ++ [a, b] ++ t) k) (hfirst : ∀ i < k, ¬ At a b (l ++ [a, b] ++ t) i) :
    k = l.length := by
  have hat : At a b (l ++ [a, b] ++ t) l.length := at_iff.mpr ⟨l, t, rfl, rfl⟩
  have hle : k ≤ l.length := Nat.le_of_not_lt fun hlt => hfirst _ hlt hat
  obtain ⟨l₁, t₁, heq, rfl⟩ := at_iff.mp hk
  have hl₁ : Free a b l₁ := by
    intro h
    obtain ⟨i, hi⟩ := not_forall.mp fun hnone => free_iff_not_at.mpr hnone h
    obtain ⟨u, v, rfl, rfl⟩ := at_iff.mp (not_not.mp hi)
    refine hfirst u.length (by simp) ?_
    rw [heq]
    exact at_iff.mpr ⟨u, v ++ [a, b] ++ t₁, by simp, rfl⟩
  rw [(line_unique hab hl hl₁ heq).1]

/-! ## Cuts -/

theorem splits_of_free {s : List α} (h : Free a b s) : Splits a b s [] s :=
  ⟨rfl, by simp, h⟩

theorem Splits.cons {s l : List α} {lines : List (List α)} {rest : List α} (hl : Free a b l)
    (h : Splits a b s lines rest) : Splits a b (l ++ [a, b] ++ s) (l :: lines) rest where
  concat := by rw [List.flatMap_cons, List.append_assoc, h.concat]
  lines_free := List.forall_mem_cons.mpr ⟨hl, h.lines_free⟩
  rest_free := h.rest_free

/-- What arrives behind the rest of one cut is cut together with that rest. -/
theorem Splits.append {s t rest rest' : List α} {lines lines' : List (List α)}
    (h : Splits a b s lines rest) (h' : Splits a b (rest ++ t) lines' rest') :
    Splits a b (s ++ t) (lines ++ lines') rest' where
  concat := by
    rw [List.flatMap_append, List.append_assoc, h'.concat, ← List.append_assoc, h.concat]
  lines_free l hl := (List.mem_append.mp hl).elim (h.lines_free l) (h'.lines_free l)
  rest_free := h'.rest_free

theorem Splits.unique (hab : a ≠ b) {s rest rest' : List α} {lines lines' : List (List α)}
    (h : Splits a b s lines rest) (h' : Splits a b s lines' rest') :
    lines = lines' ∧ rest = rest' := by
  induction lines generalizing s lines' with
  | nil =>
    have hs : rest = s := h.concat
    cases lines' with
    | nil => exact ⟨rfl, hs.trans h'.concat.symm⟩
    | cons l lines' =>
      have hfree := h.rest_free
      rw [hs, ← h'.concat, List.flatMap_cons, List.append_assoc] at hfree
      exact absurd hfree (not_free_of_delimiter l _)
  | cons l lines ih =>
    have hs := h.concat
    rw [List.flatMap_cons, List.append_assoc] at hs
    cases lines' with
    | nil =>
      have hs' : rest' = s := h'.concat
      have hfree := h'.rest_free
      rw [hs', ← hs] at hfree
      exact absurd hfree (not_free_of_delimiter l _)
    | cons l' lines' =>
      have hs' := h'.concat
      rw [List.flatMap_cons, List.append_assoc, ← hs] at hs'
      obtain ⟨hll, htail⟩ := line_unique hab (h'.lines_free l' (List.mem_cons_self ..))
        (h.lines_free l (List.mem_cons_self ..)) hs'
      obtain ⟨hlines, hrest⟩ := ih
        ⟨rfl, fun x hx => h.lines_free x (List.mem_cons_of_mem l hx), h.rest_free⟩
        ⟨htail, fun x hx => h'.lines_free x (List.mem_cons_of_mem l' hx), h'.rest_free⟩
      rw [hll, hlines, hrest]
      exact ⟨rfl, rfl⟩

end Delimiter

end SbtExample.Delimiter
