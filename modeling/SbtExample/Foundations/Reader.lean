import Mathlib

/-! # Readers of byte streams

A reader takes bytes from the front of a stream and gives a value or throws. `Parses r bs a` says
what it does on the encoding `bs` of `a`, whatever follows it; the rules compose it along `>>=` and
over a `while (true)` loop. `Shrinks` is the companion for input that nobody encoded: the stream
never grows, so that a loop whose rounds take a byte each comes to an end.
-/
set_option autoImplicit false
set_option maxHeartbeats 250000

namespace SbtExample

abbrev Bytes : Type := List UInt8

/-- The state is what is left of the stream, also when the reader throws. -/
abbrev Reader (ε α : Type) : Type := EStateM ε Bytes α

namespace Reader
variable {ε α β ι : Type}

/-- The outcome alone, as for a buffer that is dropped after the read. -/
def outcome (r : Reader ε α) (buffer : Bytes) : Except ε α :=
  match r buffer with
  | .ok a _ => .ok a
  | .error e _ => .error e

theorem bind_ok {r : Reader ε α} {f : α → Reader ε β} {s t : Bytes} {a : α} (h : r s = .ok a t) :
    (r >>= f) s = f a t := by
  change EStateM.bind r f s = _
  rw [EStateM.bind, h]

theorem bind_error {r : Reader ε α} {f : α → Reader ε β} {s t : Bytes} {e : ε}
    (h : r s = .error e t) : (r >>= f) s = .error e t := by
  change EStateM.bind r f s = _
  rw [EStateM.bind, h]

/-- What a composition that went well is made of. -/
theorem bind_eq_ok {r : Reader ε α} {f : α → Reader ε β} {s t : Bytes} {b : β}
    (h : (r >>= f) s = .ok b t) : ∃ a u, r s = .ok a u ∧ f a u = .ok b t := by
  cases hr : r s with
  | ok a u =>
    rw [bind_ok hr] at h
    exact ⟨a, u, rfl, h⟩
  | error e u =>
    rw [bind_error hr] at h
    cases h

theorem bind_eq_error {r : Reader ε α} {f : α → Reader ε β} {s t : Bytes} {e : ε}
    (h : (r >>= f) s = .error e t) :
    r s = .error e t ∨ ∃ a u, r s = .ok a u ∧ f a u = .error e t := by
  cases hr : r s with
  | ok a u =>
    rw [bind_ok hr] at h
    exact .inr ⟨a, u, rfl, h⟩
  | error e' u =>
    rw [bind_error hr] at h
    cases h
    exact .inl rfl

/-! ## Reading what was written -/

/-- On every stream that starts with `bs` the reader takes `bs` and gives `a`. -/
def Parses (r : Reader ε α) (bs : Bytes) (a : α) : Prop := ∀ rest, r (bs ++ rest) = .ok a rest

/-- On every stream that starts with `bs` the reader takes `bs` and throws `e`. -/
def Rejects (r : Reader ε α) (bs : Bytes) (e : ε) : Prop :=
  ∀ rest, r (bs ++ rest) = .error e rest

theorem Parses.pure (a : α) : Parses (pure a : Reader ε α) [] a := fun _ => rfl

theorem Rejects.throw (e : ε) : Rejects (throw e : Reader ε α) [] e := fun _ => rfl

theorem Parses.bind {r : Reader ε α} {f : α → Reader ε β} {bs cs : Bytes} {a : α} {b : β}
    (h : Parses r bs a) (h' : Parses (f a) cs b) : Parses (r >>= f) (bs ++ cs) b := by
  intro rest
  rw [List.append_assoc, bind_ok (h (cs ++ rest))]
  exact h' rest

theorem Parses.bind_rejects {r : Reader ε α} {f : α → Reader ε β} {bs cs : Bytes} {a : α} {e : ε}
    (h : Parses r bs a) (h' : Rejects (f a) cs e) : Rejects (r >>= f) (bs ++ cs) e := by
  intro rest
  rw [List.append_assoc, bind_ok (h (cs ++ rest))]
  exact h' rest

/-- The last step of a composition takes nothing. -/
theorem Parses.bind_pure {r : Reader ε α} {f : α → Reader ε β} {bs : Bytes} {a : α} {b : β}
    (h : Parses r bs a) (h' : Parses (f a) [] b) : Parses (r >>= f) bs b := by
  have := h.bind h'
  rwa [List.append_nil] at this

theorem Parses.bind_throw {r : Reader ε α} {f : α → Reader ε β} {bs : Bytes} {a : α} {e : ε}
    (h : Parses r bs a) (h' : Rejects (f a) [] e) : Rejects (r >>= f) bs e := by
  have := h.bind_rejects h'
  rwa [List.append_nil] at this

theorem Parses.outcome {r : Reader ε α} {bs : Bytes} {a : α} (h : Parses r bs a) :
    r.outcome bs = .ok a := by
  have := h []
  rw [List.append_nil] at this
  rw [Reader.outcome, this]

theorem Rejects.outcome {r : Reader ε α} {bs : Bytes} {e : ε} (h : Rejects r bs e) :
    r.outcome bs = .error e := by
  have := h []
  rw [List.append_nil] at this
  rw [Reader.outcome, this]

/-- One encoding has one value. -/
theorem Parses.unique {r : Reader ε α} {bs cs : Bytes} {a b : α} (h : Parses r bs a)
    (h' : Parses r cs b) (heq : bs = cs) : a = b := by
  subst heq
  have hboth := (h []).symm.trans (h' [])
  injection hboth

/-! ## Loops -/

/-- `while (true)`, cut off after a number of rounds with `endless`: a round gives the state of the
next one or the value that ends the loop. -/
def rounds (endless : ε) (body : α → Reader ε (α ⊕ β)) : ℕ → α → Reader ε β
  | 0, _ => throw endless
  | n + 1, a => do
    match ← body a with
    | .inl a => rounds endless body n a
    | .inr b => return b

/-- As many rounds as there are bytes left, and one more. -/
def forever (endless : ε) (body : α → Reader ε (α ⊕ β)) (a : α) : Reader ε β :=
  fun s => rounds endless body (s.length + 1) a s

section Loop
variable {endless : ε} {body : α → Reader ε (α ⊕ β)}

theorem rounds_next {n : ℕ} {a a' : α} {s t : Bytes} (h : body a s = .ok (.inl a') t) :
    rounds endless body (n + 1) a s = rounds endless body n a' t := by
  rw [rounds, bind_ok h]

theorem rounds_last {n : ℕ} {a : α} {b : β} {s t : Bytes} (h : body a s = .ok (.inr b) t) :
    rounds endless body (n + 1) a s = .ok b t := by
  rw [rounds, bind_ok h]
  rfl

/-- The loop over a list of encoded items: each round takes one of them. -/
theorem rounds_items {encode : ι → Bytes} {accept : α → ι → α} {result : α → β} {stop : Bytes}
    (items : List ι) (hitem : ∀ a, ∀ i ∈ items, Parses (body a) (encode i) (.inl (accept a i)))
    (hstop : ∀ a, Parses (body a) stop (.inr (result a))) (n : ℕ) (hn : items.length < n) (a : α)
    (rest : Bytes) :
    rounds endless body n a (items.flatMap encode ++ stop ++ rest)
      = .ok (result (items.foldl accept a)) rest := by
  induction items generalizing n a with
  | nil =>
    obtain ⟨m, rfl⟩ : ∃ m, n = m + 1 := ⟨n - 1, by simp only [List.length_nil] at hn; omega⟩
    exact rounds_last (hstop a rest)
  | cons i items ih =>
    obtain ⟨m, rfl⟩ : ∃ m, n = m + 1 := ⟨n - 1, by simp only [List.length_cons] at hn; omega⟩
    rw [List.flatMap_cons, List.append_assoc, List.append_assoc,
      rounds_next (hitem a i List.mem_cons_self _), ← List.append_assoc, List.foldl_cons]
    apply ih (fun a j hj => hitem a j (List.mem_cons_of_mem _ hj))
    simp only [List.length_cons] at hn
    omega

theorem length_le_flatMap {encode : ι → Bytes} (items : List ι) (h : ∀ i ∈ items, encode i ≠ []) :
    items.length ≤ (items.flatMap encode).length := by
  induction items with
  | nil => exact Nat.zero_le _
  | cons i items ih =>
    have hi := List.length_pos_of_ne_nil (h i List.mem_cons_self)
    have hr := ih fun j hj => h j (List.mem_cons_of_mem _ hj)
    rw [List.flatMap_cons, List.length_append, List.length_cons]
    omega

theorem Parses.forever {encode : ι → Bytes} (accept : α → ι → α) (result : α → β) {stop : Bytes}
    (items : List ι) (hitem : ∀ a, ∀ i ∈ items, Parses (body a) (encode i) (.inl (accept a i)))
    (hne : ∀ i ∈ items, encode i ≠ []) (hstop : ∀ a, Parses (body a) stop (.inr (result a)))
    (a : α) :
    Parses (forever endless body a) (items.flatMap encode ++ stop)
      (result (items.foldl accept a)) := by
  intro rest
  apply rounds_items items hitem hstop
  have := length_le_flatMap items hne
  simp only [List.length_append]
  omega

end Loop

/-! ## Input that nobody encoded -/

/-- The stream does not grow, and the reader does not throw `endless`. -/
structure Shrinks (endless : ε) (r : Reader ε α) : Prop where
  length_le : ∀ {s t : Bytes} {a : α}, r s = .ok a t → t.length ≤ s.length
  ends : ∀ {s t : Bytes}, r s ≠ .error endless t

namespace Shrinks
variable {endless : ε} {r : Reader ε α}

theorem pure (a : α) : Shrinks endless (pure a : Reader ε α) where
  length_le h := by
    cases h
    exact le_rfl
  ends h := by cases h

theorem throw {e : ε} (h : e ≠ endless) : Shrinks endless (throw e : Reader ε α) where
  length_le h' := by cases h'
  ends h' := by
    cases h'
    exact h rfl

theorem bind {f : α → Reader ε β} (h : Shrinks endless r) (h' : ∀ a, Shrinks endless (f a)) :
    Shrinks endless (r >>= f) where
  length_le hb := by
    obtain ⟨a, u, hr, hf⟩ := bind_eq_ok hb
    exact ((h' a).length_le hf).trans (h.length_le hr)
  ends hb := by
    rcases bind_eq_error hb with hr | ⟨a, u, -, hf⟩
    · exact h.ends hr
    · exact (h' a).ends hf

theorem outcome_ne (h : Shrinks endless r) (buffer : Bytes) :
    r.outcome buffer ≠ .error endless := by
  rw [Reader.outcome]
  cases hr : r buffer with
  | ok a t =>
    intro he
    cases he
  | error e t =>
    intro he
    injection he with he
    exact h.ends (he ▸ hr)

end Shrinks

section Loop
variable {endless : ε} {body : α → Reader ε (α ⊕ β)}

/-- A loop whose rounds take at least a byte ends before the rounds run out. -/
theorem rounds_shrinks (h : ∀ a, Shrinks endless (body a))
    (hlt : ∀ a a' s t, body a s = .ok (.inl a') t → t.length < s.length) (n : ℕ) (a : α)
    (s : Bytes) (hn : s.length < n) :
    (∀ b t, rounds endless body n a s = .ok b t → t.length ≤ s.length) ∧
      ∀ t, rounds endless body n a s ≠ .error endless t := by
  induction n generalizing a s with
  | zero => omega
  | succ n ih =>
    cases hb : body a s with
    | error e u =>
      have hne : e ≠ endless := fun he => (h a).ends (he ▸ hb)
      rw [rounds, bind_error hb]
      exact ⟨fun b t ht => (by cases ht), fun t ht => hne (by injection ht)⟩
    | ok next u =>
      cases next with
      | inl a' =>
        have hu := hlt a a' s u hb
        have hrec := ih a' u (by omega)
        rw [rounds_next hb]
        exact ⟨fun b t ht => (hrec.1 b t ht).trans hu.le, hrec.2⟩
      | inr b =>
        have hu := (h a).length_le hb
        rw [rounds_last hb]
        refine ⟨fun b' t ht => ?_, fun t ht => (by cases ht)⟩
        cases ht
        exact hu

theorem Shrinks.forever (h : ∀ a, Shrinks endless (body a))
    (hlt : ∀ a a' s t, body a s = .ok (.inl a') t → t.length < s.length) (a : α) :
    Shrinks endless (forever endless body a) where
  length_le {s t b} hb := (rounds_shrinks h hlt _ a s (Nat.lt_succ_self _)).1 b t hb
  ends {s t} := (rounds_shrinks h hlt _ a s (Nat.lt_succ_self _)).2 t

end Loop

end Reader
end SbtExample
