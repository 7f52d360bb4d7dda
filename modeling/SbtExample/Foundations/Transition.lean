import Mathlib

/-! # Executable transition systems

A system is a step function `step : σ → ε → Option σ`: the label resolves every choice of the
environment or the scheduler, and `none` says that the label is not enabled. A run is a list of
labels. The rules below are the inductions over runs: an invariant of every reachable state, an
invariant that also reads the run, a condition on every step of a run or on every state it goes
through, and a bound on the length of every run.
-/
set_option autoImplicit false
set_option maxHeartbeats 250000

namespace SbtExample.Transition

section System
variable {σ ε : Type} (step : σ → ε → Option σ)

/-- Executes the labels in order; `none` when one of them is not enabled. -/
def run : σ → List ε → Option σ
  | s, [] => some s
  | s, e :: es => (step s e).bind fun t => run t es

/-- `s` is the last state of some run from `s₀`. -/
def Reachable (s₀ s : σ) : Prop := ∃ es, run step s₀ es = some s

def Quiescent (s : σ) : Prop := ∀ e, step s e = none

/-- Every step of the run `es` from `s` satisfies `P`, which reads the state before the step and
the label. -/
def Along (P : σ → ε → Prop) : σ → List ε → Prop
  | _, [] => True
  | s, e :: es => P s e ∧ ∀ t, step s e = some t → Along P t es

theorem run_cons (s : σ) (e : ε) (es : List ε) :
    run step s (e :: es) = (step s e).bind fun t => run step t es := rfl

theorem run_append (s : σ) (es fs : List ε) :
    run step s (es ++ fs) = (run step s es).bind fun t => run step t fs := by
  induction es generalizing s with
  | nil => rfl
  | cons e es ih =>
    rw [List.cons_append, run_cons, run_cons]
    cases step s e with
    | none => rfl
    | some t => exact ih t

theorem run_concat (s : σ) (es : List ε) (e : ε) :
    run step s (es ++ [e]) = (run step s es).bind fun t => step t e := by
  rw [run_append]
  congr 1
  funext t
  rw [run_cons]
  cases step t e <;> rfl

theorem Reachable.refl (s : σ) : Reachable step s s := ⟨[], rfl⟩

variable {step}

/-- A system that enables every label runs every list of labels. -/
theorem exists_run (total : ∀ s e, ∃ t, step s e = some t) (s : σ) (es : List ε) :
    ∃ t, run step s es = some t := by
  induction es generalizing s with
  | nil => exact ⟨s, rfl⟩
  | cons e es ih =>
    obtain ⟨t, ht⟩ := total s e
    rw [run_cons, ht]
    exact ih t

theorem Reachable.trans {s₀ s t : σ} (h : Reachable step s₀ s) (h' : Reachable step s t) :
    Reachable step s₀ t := by
  obtain ⟨es, he⟩ := h
  obtain ⟨fs, hf⟩ := h'
  exact ⟨es ++ fs, by rw [run_append, he]; exact hf⟩

theorem Reachable.single {s t : σ} {e : ε} (h : step s e = some t) : Reachable step s t :=
  ⟨[e], by rw [run_cons, h]; rfl⟩

theorem Reachable.tail {s₀ s t : σ} {e : ε} (h : Reachable step s₀ s) (h' : step s e = some t) :
    Reachable step s₀ t := h.trans (.single h')

/-! ## Invariants -/

/-- Induction over runs: `P` may read the labels executed so far. -/
theorem run_induction {s₀ : σ} {P : List ε → σ → Prop} (init : P [] s₀)
    (next : ∀ es s e t, run step s₀ es = some s → P es s → step s e = some t → P (es ++ [e]) t)
    (es : List ε) (s : σ) (h : run step s₀ es = some s) : P es s := by
  induction es using List.reverseRecOn generalizing s with
  | nil =>
    cases h
    exact init
  | append_singleton es e ih =>
    rw [run_concat] at h
    obtain ⟨t, ht, hs⟩ := Option.bind_eq_some_iff.mp h
    exact next es t e s ht (ih t ht) hs

/-- The same over the runs whose labels all satisfy `L`. -/
theorem run_induction_of {s₀ : σ} {L : ε → Prop} {P : List ε → σ → Prop} (init : P [] s₀)
    (next : ∀ es s e t, run step s₀ es = some s → P es s → L e → step s e = some t →
      P (es ++ [e]) t)
    (es : List ε) (s : σ) (h : run step s₀ es = some s) (hes : ∀ e ∈ es, L e) : P es s := by
  refine run_induction (P := fun es s => (∀ e ∈ es, L e) → P es s) (fun _ => init) ?_ es s h hes
  intro es s e t hr ih ht hes
  exact next es s e t hr (ih fun e' he' => hes e' (List.mem_append_left _ he'))
    (hes e (List.mem_append_right _ (List.mem_singleton_self e))) ht

theorem Reachable.invariant {s₀ s : σ} {I : σ → Prop} (h : Reachable step s₀ s) (init : I s₀)
    (next : ∀ s e t, Reachable step s₀ s → I s → step s e = some t → I t) : I s := by
  obtain ⟨es, he⟩ := h
  exact run_induction (P := fun _ s => I s) init
    (fun fs s e t hr hs ht => next s e t ⟨fs, hr⟩ hs ht) es s he

theorem along_concat (P : σ → ε → Prop) (s : σ) (es : List ε) (e : ε) :
    Along step P s (es ++ [e]) ↔
      Along step P s es ∧ ∀ t, run step s es = some t → P t e := by
  induction es generalizing s with
  | nil => simp [Along, run]
  | cons f es ih =>
    simp only [List.cons_append, Along, run_cons, ih]
    cases step s f with
    | none => simp
    | some t => simp [and_assoc]

/-- A defect that appears in the steps with `D` only, and stays, is absent exactly after the runs
without such a step. -/
theorem along_iff_of_step {s₀ : σ} {B : σ → Prop} {D : σ → ε → Prop} (init : ¬ B s₀)
    (next : ∀ s e t, Reachable step s₀ s → step s e = some t → (B t ↔ B s ∨ D s e)) (es : List ε)
    (s : σ) (h : run step s₀ es = some s) :
    Along step (fun s e => ¬ D s e) s₀ es ↔ ¬ B s := by
  refine run_induction (P := fun es s => Along step (fun s e => ¬ D s e) s₀ es ↔ ¬ B s) ?_ ?_ es s h
  · exact iff_of_true trivial init
  · intro es s e t hr ih ht
    rw [along_concat, ih, next s e t ⟨es, hr⟩ ht, not_or]
    simp [hr]

/-- `P` holds of every state that the run `es` from `s` goes through. -/
def Throughout (step : σ → ε → Option σ) (P : σ → Prop) (s : σ) (es : List ε) : Prop :=
  ∀ fs t, fs <+: es → run step s fs = some t → P t

theorem throughout_concat {P : σ → Prop} {s₀ s t : σ} {es : List ε} {e : ε}
    (h : run step s₀ es = some s) (ht : step s e = some t) :
    Throughout step P s₀ (es ++ [e]) ↔ Throughout step P s₀ es ∧ P t := by
  have hrun : run step s₀ (es ++ [e]) = some t := by rw [run_concat, h]; exact ht
  constructor
  · intro hP
    exact ⟨fun fs u hfs hu => hP fs u (hfs.trans (List.prefix_append es [e])) hu,
      hP _ t (List.prefix_refl _) hrun⟩
  · rintro ⟨hP, hPt⟩ fs u hfs hu
    rcases List.prefix_concat_iff.mp hfs with rfl | hfs
    · cases hrun.symm.trans hu
      exact hPt
    · exact hP fs u hfs hu

/-- What a step with `Q` keeps, and no other step, holds throughout a run exactly when all its steps
have `Q`. -/
theorem throughout_iff_along {s₀ : σ} {P : σ → Prop} {Q : σ → ε → Prop} (init : P s₀)
    (next : ∀ s e t, P s → step s e = some t → (P t ↔ Q s e)) (es : List ε) (s : σ)
    (h : run step s₀ es = some s) : Throughout step P s₀ es ↔ Along step Q s₀ es := by
  refine run_induction (P := fun es _ => Throughout step P s₀ es ↔ Along step Q s₀ es) ?_ ?_ es s h
  · refine iff_of_true (fun fs t hfs ht => ?_) trivial
    cases List.prefix_nil.mp hfs
    cases ht
    exact init
  · intro es s e t hr ih ht
    rw [throughout_concat hr ht, along_concat, ← ih]
    refine and_congr_right fun hP => ?_
    rw [next s e t (hP es s (List.prefix_refl es) hr) ht]
    simp [hr]

/-! ## Termination -/

theorem run_length_le {s₀ : σ} (measure : σ → ℕ)
    (next : ∀ s e t, Reachable step s₀ s → step s e = some t → measure t < measure s)
    (es : List ε) (s : σ) (h : run step s₀ es = some s) : es.length + measure s ≤ measure s₀ := by
  refine run_induction (P := fun es s => es.length + measure s ≤ measure s₀) ?_ ?_ es s h
  · simp
  · intro fs s e t hr ih ht
    have := next s e t ⟨fs, hr⟩ ht
    simp only [List.length_append, List.length_singleton]
    omega

/-- Labels may bring work: each pays for itself and for what it brings. -/
theorem run_length_le_cost {s₀ : σ} (measure : σ → ℕ) (cost : ε → ℕ)
    (next : ∀ s e t, Reachable step s₀ s → step s e = some t → measure t + 1 ≤ measure s + cost e)
    (es : List ε) (s : σ) (h : run step s₀ es = some s) :
    es.length + measure s ≤ measure s₀ + (es.map cost).sum := by
  refine run_induction (P := fun es s => es.length + measure s ≤ measure s₀ + (es.map cost).sum)
    (by simp) ?_ es s h
  intro es s e t hr ih ht
  have := next s e t ⟨es, hr⟩ ht
  simp only [List.length_append, List.length_singleton, List.map_append, List.map_singleton,
    List.sum_append, List.sum_singleton]
  omega

theorem exists_quiescent {s₀ s : σ} (measure : σ → ℕ)
    (next : ∀ s e t, Reachable step s₀ s → step s e = some t → measure t < measure s)
    (h : Reachable step s₀ s) : ∃ t, Reachable step s t ∧ Quiescent step t := by
  induction hn : measure s using Nat.strong_induction_on generalizing s with
  | _ n ih =>
    by_cases hq : Quiescent step s
    · exact ⟨s, .refl step s, hq⟩
    · obtain ⟨e, he⟩ := not_forall.mp hq
      obtain ⟨t, ht⟩ := Option.ne_none_iff_exists'.mp he
      obtain ⟨u, hu, hquiet⟩ := ih (measure t) (hn ▸ next s e t h ht) (h.tail ht) rfl
      exact ⟨u, (Reachable.single ht).trans hu, hquiet⟩

end System

end SbtExample.Transition
