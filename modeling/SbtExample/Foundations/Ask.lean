import Mathlib

/-! # Asks and their reply addresses

An ask opens a reply address of its own, used by no other ask. The first thing that happens to the
address settles its future, a reply or the timeout, and whatever comes later is dropped. Addresses
are positions in the list of all asks so far, so that a fresh one is at the end. Every address
remembers its `asker`: nothing below decides by it, it is what the facts are about.
-/
set_option autoImplicit false
set_option maxHeartbeats 250000

namespace SbtExample.Ask

inductive Future (β : Type)
  | pending
  | completed (b : β)
  | failed
  deriving DecidableEq

structure Promise (α β : Type) where
  asker : α
  future : Future β

section Asks
variable {α β : Type}

def fresh (asks : List (Promise α β)) (a : α) : List (Promise α β) := asks ++ [⟨a, .pending⟩]

/-- The first one to settle a promise decides. -/
def Promise.settle (f : Future β) (p : Promise α β) : Promise α β :=
  match p.future with
  | .pending => { p with future := f }
  | _ => p

def settle (asks : List (Promise α β)) (address : ℕ) (f : Future β) : List (Promise α β) :=
  asks.modify address (Promise.settle f)

def future (asks : List (Promise α β)) (address : ℕ) : Option (Future β) :=
  asks[address]?.map Promise.future

def askers (asks : List (Promise α β)) : List α := asks.map Promise.asker

theorem askers_fresh (asks : List (Promise α β)) (a : α) :
    askers (fresh asks a) = askers asks ++ [a] := by
  simp [askers, fresh]

theorem Promise.settle_asker (f : Future β) (p : Promise α β) :
    (p.settle f).asker = p.asker := by
  unfold Promise.settle
  cases p.future <;> rfl

theorem Promise.settle_completed {f : Future β} {p : Promise α β} {b : β}
    (h : (p.settle f).future = .completed b) : p.future = .completed b ∨ f = .completed b := by
  unfold Promise.settle at h
  cases hp : p.future with
  | pending =>
    simp only [hp] at h
    exact Or.inr h
  | completed c =>
    simp only [hp] at h
    exact Or.inl h
  | failed =>
    simp only [hp] at h
    cases h

@[simp] theorem askers_settle (asks : List (Promise α β)) (address : ℕ) (f : Future β) :
    askers (settle asks address f) = askers asks := by
  apply List.ext_getElem?
  intro i
  simp only [askers, settle, List.getElem?_map, List.getElem?_modify]
  cases asks[i]? with
  | none => rfl
  | some p =>
    by_cases h : address = i
    · simp [h, Promise.settle_asker]
    · simp [h]

/-! ## What completed futures hold -/

/-- Every completed future holds something that `P` grants its asker. -/
def Sound (P : α → β → Prop) (asks : List (Promise α β)) : Prop :=
  ∀ p ∈ asks, ∀ b, p.future = .completed b → P p.asker b

variable {P Q : α → β → Prop} {asks : List (Promise α β)}

theorem Sound.mono (h : Sound P asks) (hPQ : ∀ a b, P a b → Q a b) : Sound Q asks :=
  fun p hp b hb => hPQ _ _ (h p hp b hb)

theorem Sound.fresh (h : Sound P asks) (a : α) : Sound P (fresh asks a) := by
  intro p hp b hb
  rcases List.mem_append.mp hp with hp | hp
  · exact h p hp b hb
  · rw [List.mem_singleton.mp hp] at hb
    cases hb

theorem Sound.settle (h : Sound P asks) {address : ℕ} {f : Future β}
    (hf : ∀ a b, (askers asks)[address]? = some a → f = .completed b → P a b) :
    Sound P (settle asks address f) := by
  intro p hp b hb
  obtain ⟨i, hi⟩ := List.mem_iff_getElem?.mp hp
  rw [Ask.settle, List.getElem?_modify] at hi
  obtain ⟨q, hq, rfl⟩ := Option.map_eq_some_iff.mp hi
  have hqm : q ∈ asks := List.mem_of_getElem? hq
  by_cases hai : address = i
  · subst hai
    rw [if_pos rfl] at hb ⊢
    rw [Promise.settle_asker]
    rcases Promise.settle_completed hb with hold | hnew
    · exact h q hqm b hold
    · exact hf q.asker b (by simp [askers, hq]) hnew
  · rw [if_neg hai] at hb ⊢
    exact h q hqm b hb

theorem Sound.completed (h : Sound P asks) {address : ℕ} {a : α} {b : β}
    (hb : future asks address = some (.completed b)) (ha : (askers asks)[address]? = some a) :
    P a b := by
  obtain ⟨p, hp, hpf⟩ := Option.map_eq_some_iff.mp hb
  rw [askers, List.getElem?_map, hp] at ha
  cases ha
  exact h p (List.mem_of_getElem? hp) b hpf

/-! ## What a future becomes -/

theorem future_fresh (a : α) {address : ℕ} {f : Future β} (h : future asks address = some f) :
    future (fresh asks a) address = some f := by
  obtain ⟨p, hp, hf⟩ := Option.map_eq_some_iff.mp h
  rw [future, fresh, List.getElem?_append_left (List.getElem?_eq_some_iff.mp hp).1, hp]
  exact congrArg some hf

theorem completed_settle {address : ℕ} {b : β} (h : future asks address = some (.completed b))
    (address' : ℕ) (f : Future β) :
    future (settle asks address' f) address = some (.completed b) := by
  obtain ⟨p, hp, hb⟩ := Option.map_eq_some_iff.mp h
  rw [future, settle, List.getElem?_modify, hp]
  by_cases haa : address' = address
  · simp [haa, Promise.settle, hb]
  · simp [haa, hb]

/-- None of the asks has timed out. -/
def Unfailed (asks : List (Promise α β)) : Prop := ∀ p ∈ asks, p.future ≠ .failed

theorem Unfailed.fresh (h : Unfailed asks) (a : α) : Unfailed (fresh asks a) := by
  intro p hp
  rcases List.mem_append.mp hp with hp | hp
  · exact h p hp
  · rw [List.mem_singleton.mp hp]
    nofun

theorem Unfailed.settle (h : Unfailed asks) (address : ℕ) (b : β) :
    Unfailed (settle asks address (.completed b)) := by
  intro p hp hfailed
  obtain ⟨i, hi⟩ := List.mem_iff_getElem?.mp hp
  rw [Ask.settle, List.getElem?_modify] at hi
  obtain ⟨q, hq, rfl⟩ := Option.map_eq_some_iff.mp hi
  have hqf := h q (List.mem_of_getElem? hq)
  by_cases hai : address = i
  · simp only [hai, if_true, Promise.settle] at hfailed
    cases hf : q.future <;> simp [hf] at hfailed hqf
  · simp only [hai, if_false] at hfailed
    exact hqf hfailed

theorem Unfailed.completed (h : Unfailed asks) {address : ℕ} (hlt : address < asks.length) (b : β) :
    ∃ c, future (Ask.settle asks address (.completed b)) address = some (.completed c) := by
  have hget := List.getElem?_eq_getElem hlt
  have hf := h _ (List.mem_of_getElem? hget)
  rw [future, Ask.settle, List.getElem?_modify, hget]
  cases hp : (asks[address]).future with
  | pending => exact ⟨b, by simp [Promise.settle, hp]⟩
  | completed c => exact ⟨c, by simp [Promise.settle, hp]⟩
  | failed => exact absurd hp hf

end Asks

end SbtExample.Ask
