import SbtExample.Foundations.Transition

/-! # Endless executions

An execution goes on for ever, though nothing need happen at a time. It is weakly fair to a label, or
to a kind of labels, that does not stay enabled without being executed. Under weak fairness a goal is
reached when every state on the way has helpful labels, whose execution lowers a rank that no other
step raises. A run that has come to rest is a fair execution, and a schedule that keeps offering a
label gives one that is fair to it.
-/
set_option autoImplicit false
set_option maxHeartbeats 250000

namespace SbtExample.Transition

section Execution
variable {σ ε : Type} (step : σ → ε → Option σ)

/-- `label n` is executed at time `n`; with `none` nothing happens. -/
structure Execution where
  state : ℕ → σ
  label : ℕ → Option ε
  next : ∀ n, match label n with
    | none => state (n + 1) = state n
    | some e => step (state n) e = some (state (n + 1))

variable {step}

def Execution.WeaklyFair (x : Execution step) (e : ε) : Prop :=
  ∀ n, (∀ m ≥ n, step (x.state m) e ≠ none) → ∃ m ≥ n, x.label m = some e

/-- Fairness to a kind of labels, such as those that differ in what the environment chooses. -/
def Execution.FairTo (x : Execution step) (L : ε → Prop) : Prop :=
  ∀ n, (∀ m ≥ n, ∃ e, L e ∧ step (x.state m) e ≠ none) → ∃ m ≥ n, ∃ e, L e ∧ x.label m = some e

theorem Execution.fairTo_eq {x : Execution step} {e : ε} (h : x.WeaklyFair e) :
    x.FairTo (· = e) := by
  intro n hn
  obtain ⟨m, hm, hlabel⟩ := h n fun m hm => by
    obtain ⟨e', rfl, henabled⟩ := hn m hm
    exact henabled
  exact ⟨m, hm, e, rfl, hlabel⟩

theorem Execution.weaklyFair_of_fairTo {x : Execution step} {e : ε} (h : x.FairTo (· = e)) :
    x.WeaklyFair e := by
  intro n hn
  obtain ⟨m, hm, e', rfl, hlabel⟩ := h n fun m hm => ⟨e, rfl, hn m hm⟩
  exact ⟨m, hm, hlabel⟩

theorem Execution.idle {x : Execution step} {n : ℕ} (h : x.label n = none) :
    x.state (n + 1) = x.state n := by
  have hn := x.next n
  rwa [h] at hn

theorem Execution.move {x : Execution step} {n : ℕ} {e : ε} (h : x.label n = some e) :
    step (x.state n) e = some (x.state (n + 1)) := by
  have hn := x.next n
  rwa [h] at hn

theorem Execution.reachable_of_le (x : Execution step) {m n : ℕ} (h : m ≤ n) :
    Reachable step (x.state m) (x.state n) := by
  induction n, h using Nat.le_induction with
  | base => exact .refl step _
  | succ n _ ih =>
    cases hl : x.label n with
    | none =>
      rw [x.idle hl]
      exact ih
    | some e => exact ih.tail (x.move hl)

theorem Execution.reachable (x : Execution step) (n : ℕ) :
    Reachable step (x.state 0) (x.state n) := x.reachable_of_le (Nat.zero_le n)

/-! ## Reaching a goal -/

variable {β : Type} [Preorder β]

/-- A state with `P` has helpful labels: executing one reaches the goal or lowers the rank, and
every other step reaches the goal, lowers the rank, or keeps rank and helpful labels. -/
structure HelpsBy (step : σ → ε → Option σ) (P Goal : σ → Prop) (rank : σ → β)
    (helpful : σ → ε → Prop) : Prop where
  enabled : ∀ s, P s → ∃ e, helpful s e ∧ step s e ≠ none
  next : ∀ s e t, P s → step s e = some t → Goal t ∨ P t ∧
    (rank t < rank s ∨ rank t = rank s ∧ helpful t = helpful s ∧ ¬ helpful s e)

/-- The case of one helpful label in every state. -/
structure Helps (step : σ → ε → Option σ) (P Goal : σ → Prop) (rank : σ → β) (helpful : σ → ε) :
    Prop where
  enabled : ∀ s, P s → step s (helpful s) ≠ none
  next : ∀ s e t, P s → step s e = some t → Goal t ∨ P t ∧
    (rank t < rank s ∨ rank t = rank s ∧ helpful t = helpful s ∧ e ≠ helpful s)

variable {P Goal : σ → Prop} {rank : σ → β}

theorem HelpsBy.along {helpful : σ → ε → Prop} (h : HelpsBy step P Goal rank helpful)
    (x : Execution step) {m : ℕ} (hP : P (x.state m)) :
    Goal (x.state (m + 1)) ∨ P (x.state (m + 1)) ∧
      (rank (x.state (m + 1)) < rank (x.state m) ∨ rank (x.state (m + 1)) = rank (x.state m) ∧
        helpful (x.state (m + 1)) = helpful (x.state m) ∧
        ∀ e, x.label m = some e → ¬ helpful (x.state m) e) := by
  cases hl : x.label m with
  | none =>
    rw [x.idle hl]
    exact Or.inr ⟨hP, Or.inr ⟨rfl, rfl, nofun⟩⟩
  | some e =>
    rcases h.next _ e _ hP (x.move hl) with hg | ⟨hP', hlt | ⟨hrank, hhelpful, he⟩⟩
    · exact Or.inl hg
    · exact Or.inr ⟨hP', Or.inl hlt⟩
    · refine Or.inr ⟨hP', Or.inr ⟨hrank, hhelpful, fun e' he' => ?_⟩⟩
      cases he'
      exact he

/-- The rank falls, or the helpful labels are never executed although one of them stays enabled. -/
theorem HelpsBy.reaches [WellFoundedLT β] {helpful : σ → ε → Prop}
    (h : HelpsBy step P Goal rank helpful) (x : Execution step)
    (hfair : ∀ s, P s → x.FairTo (helpful s)) {n : ℕ} (hn : P (x.state n)) :
    ∃ m ≥ n, Goal (x.state m) := by
  induction hrank : rank (x.state n) using WellFoundedLT.induction generalizing n with
  | _ b ih =>
    subst hrank
    by_contra hnever
    have hstep : ∀ m ≥ n, P (x.state m) → rank (x.state m) = rank (x.state n) →
        P (x.state (m + 1)) ∧ rank (x.state (m + 1)) = rank (x.state m) ∧
          helpful (x.state (m + 1)) = helpful (x.state m) ∧
          ∀ e, x.label m = some e → ¬ helpful (x.state m) e := by
      intro m hm hP hrank
      rcases h.along x hP with hg | ⟨hP', hlt | hsame⟩
      · exact absurd ⟨m + 1, by omega, hg⟩ hnever
      · obtain ⟨k, hk, hg⟩ := ih _ (hrank ▸ hlt) hP' rfl
        exact absurd ⟨k, by omega, hg⟩ hnever
      · exact ⟨hP', hsame⟩
    have hstays : ∀ m ≥ n, P (x.state m) ∧ rank (x.state m) = rank (x.state n) ∧
        helpful (x.state m) = helpful (x.state n) := by
      intro m hm
      induction m, hm using Nat.le_induction with
      | base => exact ⟨hn, rfl, rfl⟩
      | succ m hm ihm =>
        obtain ⟨hP, hrank, hhelpful⟩ := ihm
        obtain ⟨hP', hrank', hhelpful', -⟩ := hstep m hm hP hrank
        exact ⟨hP', hrank'.trans hrank, hhelpful'.trans hhelpful⟩
    obtain ⟨m, hm, e, he, hlabel⟩ := hfair _ hn n fun m hm => by
      obtain ⟨hP, -, hhelpful⟩ := hstays m hm
      exact hhelpful ▸ h.enabled _ hP
    obtain ⟨hP, hrank, hhelpful⟩ := hstays m hm
    obtain ⟨-, -, -, hunused⟩ := hstep m hm hP hrank
    exact hunused e hlabel (hhelpful ▸ he)

theorem Helps.reaches [WellFoundedLT β] {helpful : σ → ε} (h : Helps step P Goal rank helpful)
    (x : Execution step) (hfair : ∀ s, P s → x.WeaklyFair (helpful s)) {n : ℕ}
    (hn : P (x.state n)) : ∃ m ≥ n, Goal (x.state m) := by
  have hby : HelpsBy step P Goal rank fun s e => e = helpful s :=
    { enabled := fun s hP => ⟨helpful s, rfl, h.enabled s hP⟩
      next := fun s e t hP ht => (h.next s e t hP ht).imp_right fun ⟨hP', hrank⟩ =>
        ⟨hP', hrank.imp_right fun ⟨hsame, hhelpful, he⟩ => ⟨hsame, by rw [hhelpful], he⟩⟩ }
  exact hby.reaches x (fun s hP => Execution.fairTo_eq (hfair s hP)) hn

/-- What has only so much to do comes to rest when every label is served. -/
theorem Execution.reaches_quiescent {x : Execution step} (measure : σ → ℕ)
    (next : ∀ s e t, step s e = some t → measure t < measure s) (hfair : ∀ e, x.WeaklyFair e)
    (n : ℕ) : ∃ m ≥ n, Quiescent step (x.state m) := by
  induction hn : measure (x.state n) using Nat.strong_induction_on generalizing n with
  | _ k ih =>
    by_cases hq : Quiescent step (x.state n)
    · exact ⟨n, le_rfl, hq⟩
    obtain ⟨e, he⟩ := not_forall.mp hq
    have hmoves : ∃ m ≥ n, ∃ e, x.label m = some e := by
      by_contra hnone
      have hidle : ∀ m ≥ n, x.label m = none := fun m hm =>
        Option.eq_none_iff_forall_ne_some.mpr fun e hl => hnone ⟨m, hm, e, hl⟩
      have hstays : ∀ m ≥ n, x.state m = x.state n := by
        intro m hm
        induction m, hm using Nat.le_induction with
        | base => rfl
        | succ m hm ihm => rw [x.idle (hidle m hm), ihm]
      obtain ⟨m, hm, hl⟩ := hfair e n fun m hm => by rwa [hstays m hm]
      exact hnone ⟨m, hm, e, hl⟩
    obtain ⟨m, hm, e, hl⟩ := hmoves
    obtain ⟨es, hes⟩ := x.reachable_of_le hm
    have hle := run_length_le measure (fun s e t _ => next s e t) es _ hes
    have hlt := next _ e _ (x.move hl)
    obtain ⟨m', hm', hquiet⟩ := ih _ (by omega) (m + 1) rfl
    exact ⟨m', by omega, hquiet⟩

/-! ## Runs that have come to rest -/

theorem exists_run_take {s₀ s : σ} {es : List ε} (h : run step s₀ es = some s) (n : ℕ) :
    ∃ t, run step s₀ (es.take n) = some t := by
  rw [← List.take_append_drop n es, run_append] at h
  obtain ⟨t, ht, -⟩ := Option.bind_eq_some_iff.mp h
  exact ⟨t, ht⟩

/-- The run, and nothing after it. -/
def Execution.ofRun {s₀ s : σ} {es : List ε} (h : run step s₀ es = some s) : Execution step where
  state n := (run step s₀ (es.take n)).getD s
  label n := es[n]?
  next n := by
    obtain hn | hn := Nat.lt_or_ge n es.length
    · obtain ⟨t, ht⟩ := exists_run_take h n
      obtain ⟨u, hu⟩ := exists_run_take h (n + 1)
      have hstep := hu
      rw [← List.take_concat_get' es n hn, run_concat, ht] at hstep
      simp only [List.getElem?_eq_getElem hn, ht, hu]
      exact hstep
    · simp only [List.getElem?_eq_none hn, List.take_of_length_le hn,
        List.take_of_length_le (Nat.le_succ_of_le hn)]

theorem Execution.state_ofRun {s₀ s : σ} {es : List ε} (h : run step s₀ es = some s) {n : ℕ}
    (hn : es.length ≤ n) : (Execution.ofRun h).state n = s := by
  change (run step s₀ (es.take n)).getD s = s
  rw [List.take_of_length_le hn, h]
  rfl

/-- It is fair to what the last state leaves disabled. -/
theorem Execution.fairTo_ofRun {s₀ s : σ} {es : List ε} (h : run step s₀ es = some s)
    {L : ε → Prop} (hrest : ∀ e, L e → step s e = none) : (Execution.ofRun h).FairTo L := by
  intro n hn
  obtain ⟨e, he, henabled⟩ := hn (max n es.length) (Nat.le_max_left _ _)
  rw [Execution.state_ofRun h (Nat.le_max_right _ _), hrest e he] at henabled
  exact absurd rfl henabled

/-! ## Schedules -/

/-- Offers one label after the other; one that is not enabled is passed over. -/
def Execution.ofSchedule (step : σ → ε → Option σ) (offer : ℕ → ε) (s₀ : σ) : Execution step where
  state := Nat.rec s₀ fun n s => (step s (offer n)).getD s
  label n :=
    let s : σ := Nat.rec s₀ (fun n s => (step s (offer n)).getD s) n
    if (step s (offer n)).isSome then some (offer n) else none
  next n := by
    cases h : step (Nat.rec s₀ (fun n s => (step s (offer n)).getD s) n) (offer n) <;> simp [h]

theorem Execution.state_ofSchedule {offer : ℕ → ε} {s₀ : σ} (n : ℕ) (s : σ)
    (h : run step s₀ ((List.range n).map offer) = some s) :
    (Execution.ofSchedule step offer s₀).state n = s := by
  induction n generalizing s with
  | zero => exact Option.some.inj h
  | succ n ih =>
    rw [List.range_succ, List.map_append, List.map_singleton, run_concat] at h
    obtain ⟨t, ht, hs⟩ := Option.bind_eq_some_iff.mp h
    change (step ((Execution.ofSchedule step offer s₀).state n) (offer n)).getD _ = s
    rw [ih t ht, hs, Option.getD_some]

theorem Execution.fair_ofSchedule {offer : ℕ → ε} {s₀ : σ} {L : ε → Prop}
    (hoffer : ∀ n, ∃ m ≥ n, L (offer m) ∧
      ∀ s e, L e → step s e ≠ none → step s (offer m) ≠ none) :
    (Execution.ofSchedule step offer s₀).FairTo L := by
  intro n hn
  obtain ⟨m, hm, hL, henabled⟩ := hoffer n
  obtain ⟨e, he, hstep⟩ := hn m hm
  refine ⟨m, hm, offer m, hL, if_pos ?_⟩
  exact Option.isSome_iff_ne_none.mpr (henabled _ e he hstep)

/-- A label that is offered over and over. -/
theorem Execution.weaklyFair_ofSchedule {offer : ℕ → ε} {s₀ : σ} {e : ε}
    (hoffer : ∀ n, ∃ m ≥ n, offer m = e) : (Execution.ofSchedule step offer s₀).WeaklyFair e := by
  refine Execution.weaklyFair_of_fairTo (Execution.fair_ofSchedule fun n => ?_)
  obtain ⟨m, hm, rfl⟩ := hoffer n
  exact ⟨m, hm, rfl, fun s e he henabled => he ▸ henabled⟩

end Execution

end SbtExample.Transition
