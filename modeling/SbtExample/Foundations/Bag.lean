import Mathlib

/-! # Bags of messages in flight, and logs

A bag is a list whose order carries no promise: `pick l k` takes out the message at position `k`, so
that a system whose labels name `k` delivers its messages in every order. The facts are about
permutations and about the tags `f` of the messages that stay behind. A log is a list that only
grows at its end: a position, once written, keeps its entry.
-/
set_option autoImplicit false
set_option maxHeartbeats 250000

namespace SbtExample.Bag

variable {α β : Type}

def pick (l : List α) (k : ℕ) : Option (α × List α) :=
  l[k]?.map fun a => (a, l.eraseIdx k)

theorem pick_eq_some {l rest : List α} {k : ℕ} {a : α} (h : pick l k = some (a, rest)) :
    l[k]? = some a ∧ rest = l.eraseIdx k := by
  obtain ⟨b, hb, he⟩ := Option.map_eq_some_iff.mp h
  obtain ⟨rfl, rfl⟩ := Prod.mk.inj he
  exact ⟨hb, rfl⟩

theorem pick_perm {l rest : List α} {k : ℕ} {a : α} (h : pick l k = some (a, rest)) :
    l.Perm (a :: rest) := by
  obtain ⟨ha, rfl⟩ := pick_eq_some h
  obtain ⟨hk, rfl⟩ := List.getElem?_eq_some_iff.mp ha
  exact (List.getElem_cons_eraseIdx_perm hk).symm

theorem pick_mem {l rest : List α} {k : ℕ} {a : α} (h : pick l k = some (a, rest)) : a ∈ l :=
  (pick_perm h).mem_iff.mpr (List.mem_cons_self ..)

theorem pick_rest_mem {l rest : List α} {k : ℕ} {a b : α} (h : pick l k = some (a, rest))
    (hb : b ∈ rest) : b ∈ l :=
  (pick_perm h).mem_iff.mpr (List.mem_cons_of_mem a hb)

theorem pick_sublist {l rest : List α} {k : ℕ} {a : α} (h : pick l k = some (a, rest)) :
    rest.Sublist l := by
  obtain ⟨-, rfl⟩ := pick_eq_some h
  exact List.eraseIdx_sublist l k

theorem pick_length {l rest : List α} {k : ℕ} {a : α} (h : pick l k = some (a, rest)) :
    l.length = rest.length + 1 := (pick_perm h).length_eq

theorem pick_map {l rest : List α} {k : ℕ} {a : α} (f : α → β) (h : pick l k = some (a, rest)) :
    (l.map f).Perm (f a :: rest.map f) := (pick_perm h).map f

theorem eq_nil_of_pick_none {l : List α} (h : pick l 0 = none) : l = [] := by
  cases l with
  | nil => rfl
  | cons a l => cases h

/-! ## Logs -/

theorem getElem?_concat_of_some {l : List α} {i : ℕ} {a : α} (b : α) (h : l[i]? = some a) :
    (l ++ [b])[i]? = some a := by
  rw [List.getElem?_append_left (List.getElem?_eq_some_iff.mp h).1, h]

theorem getElem?_concat_cases {l : List α} {i : ℕ} {a b : α} (h : (l ++ [b])[i]? = some a) :
    l[i]? = some a ∨ i = l.length ∧ a = b := by
  rcases Nat.lt_trichotomy i l.length with hlt | rfl | hgt
  · rw [List.getElem?_append_left hlt] at h
    exact Or.inl h
  · rw [List.getElem?_concat_length] at h
    exact Or.inr ⟨rfl, (Option.some.inj h).symm⟩
  · rw [List.getElem?_append_right hgt.le, List.getElem?_eq_none (by simp; omega)] at h
    cases h

theorem countP_concat (P : α → Bool) (l : List α) (a : α) :
    (l ++ [a]).countP P = l.countP P + if P a then 1 else 0 := by
  rw [List.countP_append, List.countP_singleton]

end SbtExample.Bag
