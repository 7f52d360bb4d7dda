import Mathlib

/-! # Lists of parties

The states of a number of parties, of which one moves at a time: `update l i f` lets party `i` make
the step `f`, if it can. What every party has is kept when the step keeps it, and a sum over the
parties changes by what it changes in the one that moved.
-/
set_option autoImplicit false
set_option maxHeartbeats 250000

namespace SbtExample.Slots

variable {α β : Type}

def update (l : List α) (i : ℕ) (f : α → Option α) : Option (List α) := do
  let a ← l[i]?
  let b ← f a
  return l.set i b

variable {l l' : List α} {i : ℕ} {f : α → Option α} {a b : α}

theorem update_eq_some (h : update l i f = some l') :
    ∃ a b, l[i]? = some a ∧ f a = some b ∧ l' = l.set i b := by
  obtain ⟨a, ha, h⟩ := Option.bind_eq_some_iff.mp h
  obtain ⟨b, hb, h⟩ := Option.bind_eq_some_iff.mp h
  cases h
  exact ⟨a, b, ha, hb, rfl⟩

/-- A party that can make the step lets the list make it. -/
theorem update_ne_none (ha : l[i]? = some a) (hf : f a ≠ none) : update l i f ≠ none := by
  obtain ⟨b, hb⟩ := Option.ne_none_iff_exists'.mp hf
  rw [update, ha]
  change (f a).bind _ ≠ none
  rw [hb]
  exact Option.some_ne_none _

theorem forall_mem_set {P : α → Prop} (h : ∀ c ∈ l, P c) (hb : P b) : ∀ c ∈ l.set i b, P c := by
  intro c hc
  rcases List.mem_or_eq_of_mem_set hc with hc | rfl
  · exact h c hc
  · exact hb

/-- What the step leaves alone. -/
theorem map_set_eq {g : α → β} (ha : l[i]? = some a) (hg : g b = g a) :
    (l.set i b).map g = l.map g := by
  refine List.ext_getElem? fun j => ?_
  rw [List.getElem?_map, List.getElem?_map, List.getElem?_set]
  split_ifs with hij hi
  · rw [← hij, ha, Option.map_some, Option.map_some, hg]
  · rw [← hij, List.getElem?_eq_none (Nat.le_of_not_lt hi)]
  · rfl

theorem map_modify_eq {step : α → α} {g : α → β} (hg : ∀ a, g (step a) = g a) :
    (l.modify i step).map g = l.map g := by
  refine List.ext_getElem? fun j => ?_
  rw [List.getElem?_map, List.getElem?_map, List.getElem?_modify]
  cases l[j]? with
  | none => rfl
  | some a =>
    by_cases hij : i = j
    · simp [hij, hg]
    · simp [hij]

/-- A sum changes by what it changes in one party. -/
theorem sum_map_set (g : α → ℕ) (ha : l[i]? = some a) :
    ((l.set i b).map g).sum + g a = (l.map g).sum + g b := by
  induction l generalizing i with
  | nil => cases ha
  | cons c l ih =>
    cases i with
    | zero =>
      cases ha
      simp only [List.set_cons_zero, List.map_cons, List.sum_cons]
      omega
    | succ i =>
      have := ih (i := i) ha
      simp only [List.set_cons_succ, List.map_cons, List.sum_cons]
      omega

theorem sum_map_set_lt (g : α → ℕ) (ha : l[i]? = some a) (hlt : g b < g a) :
    ((l.set i b).map g).sum < (l.map g).sum := by
  have := sum_map_set (b := b) g ha
  omega

end SbtExample.Slots
