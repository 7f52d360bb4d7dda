import Mathlib

/-! # Services and filters

A service answers requests and may keep a state; a filter stands in front of a service. A service
that guards another one answers some requests itself and passes the others on. In a whole sequence
of requests the inner service then sees those that are passed on and nothing else, and the answers
to the others are woven in between its own.
-/
set_option autoImplicit false
set_option maxHeartbeats 250000

namespace SbtExample.Services

variable {σ ε ε' Req Rep Rep' : Type}

abbrev Service (σ ε Req Rep : Type) : Type := Req → StateM σ (Except ε Rep)

abbrev SimpleFilter (σ ε Req Rep : Type) : Type :=
  Req → Service σ ε Req Rep → StateM σ (Except ε Rep)

def SimpleFilter.andThenService (filter : SimpleFilter σ ε Req Rep)
    (service : Service σ ε Req Rep) : Service σ ε Req Rep := fun request => filter request service

def SimpleFilter.andThen (filter next : SimpleFilter σ ε Req Rep) : SimpleFilter σ ε Req Rep :=
  fun request service => filter request (next.andThenService service)

/-- The answers to the requests, one after the other. -/
def serve (service : Service σ ε Req Rep) : List Req → StateM σ (List (Except ε Rep))
  | [] => pure []
  | request :: requests => do
    let answer ← service request
    let answers ← serve service requests
    return answer :: answers

theorem serve_cons (service : Service σ ε Req Rep) (request : Req) (requests : List Req) (s : σ) :
    serve service (request :: requests) s
      = ((service request s).1 :: (serve service requests (service request s).2).1,
          (serve service requests (service request s).2).2) := rfl

section Guards
variable (p : Req → Prop) [DecidablePred p]

/-- `outer` passes the requests with `p` on to `inner`, whose answers it translates, and refuses
the others. -/
structure Guards (seen : Except ε Rep → Except ε' Rep') (refusal : Except ε' Rep')
    (outer : Service σ ε' Req Rep') (inner : Service σ ε Req Rep) : Prop where
  passed : ∀ request, p request → outer request = seen <$> inner request
  refused : ∀ request, ¬ p request → outer request = pure refusal

/-- The answers of the inner service, with the refusals in their places. -/
def weave (seen : Except ε Rep → Except ε' Rep') (refusal : Except ε' Rep') :
    List Req → List (Except ε Rep) → List (Except ε' Rep')
  | [], _ => []
  | request :: requests, answers =>
    if p request then
      match answers with
      | answer :: answers => seen answer :: weave seen refusal requests answers
      | [] => []
    else refusal :: weave seen refusal requests answers

variable {p} {seen : Except ε Rep → Except ε' Rep'} {refusal : Except ε' Rep'}
  {outer : Service σ ε' Req Rep'} {inner : Service σ ε Req Rep}

theorem weave_passed {request : Req} (hp : p request) (requests : List Req)
    (answer : Except ε Rep) (answers : List (Except ε Rep)) :
    weave p seen refusal (request :: requests) (answer :: answers)
      = seen answer :: weave p seen refusal requests answers := by
  simp only [weave, if_pos hp]

theorem weave_refused {request : Req} (hp : ¬ p request) (requests : List Req)
    (answers : List (Except ε Rep)) :
    weave p seen refusal (request :: requests) answers
      = refusal :: weave p seen refusal requests answers := by
  simp only [weave, if_neg hp]

omit [DecidablePred p] in
/-- Translating every answer once more. -/
theorem Guards.translate {ε'' Rep'' : Type} (h : Guards p seen refusal outer inner)
    {front : Service σ ε'' Req Rep''} {post : Except ε' Rep' → Except ε'' Rep''}
    (hfront : ∀ request, front request = post <$> outer request) :
    Guards p (fun answer => post (seen answer)) (post refusal) front inner where
  passed request hp := by
    rw [hfront, h.passed request hp]
    rfl
  refused request hp := by
    rw [hfront, h.refused request hp]
    rfl

/-- The inner service is served the requests with `p` only. -/
theorem Guards.serve_eq (h : Guards p seen refusal outer inner) (requests : List Req) (s : σ) :
    serve outer requests s
      = (weave p seen refusal requests (serve inner (requests.filter p) s).1,
          (serve inner (requests.filter p) s).2) := by
  induction requests generalizing s with
  | nil => rfl
  | cons request requests ih =>
    rw [serve_cons]
    by_cases hp : p request
    · rw [h.passed request hp, List.filter_cons_of_pos (by simpa using hp), serve_cons,
        weave_passed hp]
      change (seen (inner request s).1 :: (serve outer requests (inner request s).2).1,
        (serve outer requests (inner request s).2).2) = _
      rw [ih]
    · rw [h.refused request hp, List.filter_cons_of_neg (by simpa using hp), weave_refused hp]
      change (refusal :: (serve outer requests s).1, (serve outer requests s).2) = _
      rw [ih]

/-- A refusal that no answer of the inner service looks like tells which requests were refused. -/
theorem Guards.refusal_iff (h : Guards p seen refusal outer inner)
    (hseen : ∀ request s, seen (inner request s).1 ≠ refusal) (requests : List Req) (s : σ)
    (i : ℕ) (request : Req) (hi : requests[i]? = some request) :
    (serve outer requests s).1[i]? = some refusal ↔ ¬ p request := by
  induction requests generalizing i s with
  | nil => cases hi
  | cons first requests ih =>
    rw [serve_cons]
    cases i with
    | zero =>
      cases hi
      rw [List.getElem?_cons_zero, Option.some.injEq]
      by_cases hp : p request
      · rw [h.passed request hp]
        exact iff_of_false (hseen request s) (not_not_intro hp)
      · rw [h.refused request hp]
        exact iff_of_true rfl hp
    | succ i => exact ih _ i hi

end Guards

end SbtExample.Services
