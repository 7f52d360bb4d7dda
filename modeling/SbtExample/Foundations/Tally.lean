import Mathlib

/-! # Tallies: amounts accumulated in a finite map

A finite map whose values are only ever added to. `amounts m` reads a map as a function into
`WithZero β`: `0` is an absent key, `↑b` a key that is present (possibly with the amount `0` of
`β`). Bumping a key is then pointwise addition of a single amount, so that any sequence of bumps, in
any order and with any repetition of keys, is a sum in a commutative monoid.
-/
set_option autoImplicit false
set_option maxHeartbeats 250000

namespace SbtExample.Tally

variable {α β : Type} [DecidableEq α]

/-! ## The map -/

abbrev Table (α β : Type) : Type := AList fun _ : α => β

def getOrElse (m : Table α β) (k : α) (default : β) : β := (m.lookup k).getD default

def put (m : Table α β) (k : α) (v : β) : Table α β := m.insert k v

def toList (m : Table α β) : List (α × β) := m.entries.map fun e => (e.1, e.2)

theorem lookup_put (m : Table α β) (k k' : α) (v : β) :
    (put m k v).lookup k' = if k' = k then some v else m.lookup k' := by
  by_cases h : k' = k
  · subst h
    rw [put, AList.lookup_insert, if_pos rfl]
  · rw [put, AList.lookup_insert_ne h, if_neg h]

theorem mem_toList (m : Table α β) (k : α) (v : β) : (k, v) ∈ toList m ↔ m.lookup k = some v := by
  rw [← Option.mem_def, AList.mem_lookup_iff, toList, List.mem_map]
  constructor
  · rintro ⟨⟨k', v'⟩, he, heq⟩
    obtain ⟨rfl, rfl⟩ := Prod.mk.inj heq
    exact he
  · exact fun he => ⟨⟨k, v⟩, he, rfl⟩

omit [DecidableEq α] in
theorem nodup_keys_toList (m : Table α β) : ((toList m).map Prod.fst).Nodup := by
  rw [toList, List.map_map]
  exact m.nodupKeys

/-! ## Amounts -/

/-- The amount of every key; `0` where the key is absent. -/
def amounts (m : Table α β) (k : α) : WithZero β :=
  match m.lookup k with
  | none => 0
  | some v => (v : WithZero β)

theorem amounts_empty : amounts (∅ : Table α β) = 0 := by
  funext k
  simp [amounts]

theorem amounts_eq_coe (m : Table α β) (k : α) (v : β) :
    amounts m k = (v : WithZero β) ↔ m.lookup k = some v := by
  unfold amounts
  cases m.lookup k with
  | none => simp
  | some w => simp

theorem amounts_eq_zero (m : Table α β) (k : α) : amounts m k = 0 ↔ m.lookup k = none := by
  unfold amounts
  cases m.lookup k with
  | none => simp
  | some w => simp

theorem lookup_eq_of_amounts {m m' : Table α β} {k : α} (h : amounts m k = amounts m' k) :
    m.lookup k = m'.lookup k := by
  cases hm : m.lookup k with
  | none => rw [((amounts_eq_zero m' k).mp (h ▸ (amounts_eq_zero m k).mpr hm))]
  | some v => rw [((amounts_eq_coe m' k v).mp (h ▸ (amounts_eq_coe m k v).mpr hm))]

/-! ## Bumps -/

variable [AddCommMonoid β]

def bump (m : Table α β) (k : α) (v : β) : Table α β := put m k (getOrElse m k 0 + v)

def absorb (m : Table α β) (l : List (α × β)) : Table α β :=
  l.foldl (fun m a => bump m a.1 a.2) m

def single (a : α × β) : α → WithZero β := Pi.single a.1 (a.2 : WithZero β)

theorem amounts_bump (m : Table α β) (k : α) (v : β) :
    amounts (bump m k v) = amounts m + single (k, v) := by
  funext k'
  by_cases h : k' = k
  · subst h
    rw [Pi.add_apply, single, Pi.single_eq_same, amounts, bump, lookup_put, if_pos rfl]
    unfold amounts getOrElse
    cases m.lookup k' with
    | none => simp
    | some w => simp
  · rw [Pi.add_apply, single, Pi.single_eq_of_ne h, add_zero, amounts, bump, lookup_put, if_neg h]
    rfl

theorem amounts_absorb (m : Table α β) (l : List (α × β)) :
    amounts (absorb m l) = amounts m + (l.map single).sum := by
  induction l generalizing m with
  | nil => rw [List.map_nil, List.sum_nil, add_zero]; rfl
  | cons a l ih =>
    have h := ih (bump m a.1 a.2)
    rw [amounts_bump, add_assoc] at h
    rw [List.map_cons, List.sum_cons]
    exact h

theorem sum_single_apply_of_notMem (l : List (α × β)) (k : α) (h : k ∉ l.map Prod.fst) :
    (l.map single).sum k = 0 := by
  induction l with
  | nil => rfl
  | cons a l ih =>
    rw [List.map_cons, List.mem_cons, not_or] at h
    rw [List.map_cons, List.sum_cons, Pi.add_apply, ih h.2, add_zero, single,
      Pi.single_eq_of_ne h.1]

theorem sum_toList (m : Table α β) : ((toList m).map single).sum = amounts m := by
  have hkeys := nodup_keys_toList m
  have hsum : ∀ l : List (α × β), (l.map Prod.fst).Nodup → ∀ k v, (k, v) ∈ l →
      (l.map single).sum k = (v : WithZero β) := by
    intro l
    induction l with
    | nil => intro _ k v hv; cases hv
    | cons a l ih =>
      intro hnd k v hv
      rw [List.map_cons, List.nodup_cons] at hnd
      rw [List.map_cons, List.sum_cons, Pi.add_apply]
      rcases List.mem_cons.mp hv with rfl | hv
      · rw [sum_single_apply_of_notMem l k hnd.1, add_zero, single, Pi.single_eq_same]
      · have hne : k ≠ a.1 := fun e => hnd.1 (e ▸ List.mem_map_of_mem hv)
        rw [ih hnd.2 k v hv, single, Pi.single_eq_of_ne hne, zero_add]
  funext k
  cases hk : m.lookup k with
  | none =>
    rw [(amounts_eq_zero m k).mpr hk]
    refine sum_single_apply_of_notMem _ k fun hmem => ?_
    obtain ⟨⟨k', v⟩, he, rfl⟩ := List.mem_map.mp hmem
    rw [mem_toList, hk] at he
    cases he
  | some v => rw [(amounts_eq_coe m k v).mpr hk, hsum _ hkeys k v ((mem_toList m k v).mpr hk)]

theorem amounts_absorb_toList (m m' : Table α β) :
    amounts (absorb m (toList m')) = amounts m + amounts m' := by
  rw [amounts_absorb, sum_toList]

/-- The amounts of a list of equal bumps, by multiplicity. -/
theorem sum_single_const (b : β) (xs : List α) (k : α) :
    ((xs.map fun x => single (x, b)).sum) k =
      if k ∈ xs then ((xs.count k • b : β) : WithZero β) else 0 := by
  induction xs with
  | nil => rfl
  | cons x xs ih =>
    rw [List.map_cons, List.sum_cons, Pi.add_apply, ih]
    by_cases hx : k = x
    · subst hx
      rw [single, Pi.single_eq_same, List.count_cons_self, if_pos (List.mem_cons_self ..)]
      by_cases hk : k ∈ xs
      · rw [if_pos hk, succ_nsmul', WithZero.coe_add]
      · rw [if_neg hk, List.count_eq_zero_of_not_mem hk, add_zero, zero_add, one_nsmul]
    · rw [single, Pi.single_eq_of_ne hx, zero_add, List.count_cons_of_ne (Ne.symm hx)]
      simp only [List.mem_cons, hx, false_or]

end SbtExample.Tally
