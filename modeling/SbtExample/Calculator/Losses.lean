import SbtExample.Calculator.Children

/-! # Results that are lost

At the creation actor, an unmatched result restarts the actor, which stops the calculators of all
other operations.
-/
set_option autoImplicit false
set_option maxHeartbeats 250000

namespace SbtExample.Calculator
open Bag

section Losses
variable {Double : Type} {div : Double → Int32 → Double} {s t : System Double}

/-! ## The creation actor -/

/-- All messages have been delivered, or dropped with the child they were for. -/
def System.Delivered (s : System Double) : Prop :=
  s.answers = [] ∧ ∀ c ∈ s.children, c.mailbox = []

/-- A calculator terminates before it has processed its multiplication or division. -/
def System.Drops (s : System Double) : Label Double → Prop
  | .terminate child => ∃ (c : Child Double) (i : ℕ) (op : MathOp Double),
      s.children[child]? = some c ∧ (i, op) ∈ c.mailbox ∧ op.isSent = true
  | _ => False

def System.Lost (s : System Double) : Prop :=
  ∃ (i : ℕ) (op : MathOp Double), s.accepted[i]? = some op ∧ op.isSent = true ∧
    s.children[i]? = some ⟨[], [], .terminated⟩

theorem Child.stop_eq_dropped {c : Child Double} :
    c.stop = ⟨[], [], .terminated⟩ ↔ c = ⟨[], [], .terminated⟩ := by
  rcases c with ⟨mailbox, received, _ | _ | _⟩ <;> simp [Child.stop]

theorem lost_operation (hs : Placed div s) (op : MathOp Double) :
    (s.operation op).Lost ↔ s.Lost := by
  constructor
  · rintro ⟨i, op', hop, hsent, hchild⟩
    rcases getElem?_concat_cases hchild with hold | ⟨-, hnew⟩
    · rcases getElem?_concat_cases hop with hop | ⟨hi, -⟩
      · exact ⟨i, op', hop, hsent, hold⟩
      · have hlt := (List.getElem?_eq_some_iff.mp hold).1
        rw [hs.length] at hlt
        omega
    · cases hnew
  · rintro ⟨i, op', hop, hsent, hchild⟩
    exact ⟨i, op', getElem?_concat_of_some _ hop, hsent, getElem?_concat_of_some _ hchild⟩

/-- Replacing a child that was not dropped, and telling children to stop. -/
theorem lost_iff_of_children (haccepted : t.accepted = s.accepted)
    (hchildren : ∀ i : ℕ, t.children[i]? = some ⟨[], [], .terminated⟩ ↔
      s.children[i]? = some ⟨[], [], .terminated⟩) : t.Lost ↔ s.Lost := by
  simp only [System.Lost, haccepted, hchildren]

theorem lost_process {child : ℕ} (h : s.process div child = some t) : t.Lost ↔ s.Lost := by
  obtain ⟨i, op, rest, received, status, hchild, -, rfl⟩ := process_eq_some h
  refine lost_iff_of_children rfl fun j => ?_
  by_cases hj : child = j
  · subst hj
    have hlt := (List.getElem?_eq_some_iff.mp hchild).1
    simp [hchild, List.getElem?_set_self hlt]
  · simp [List.getElem?_set_ne hj]

theorem lost_deliver {k : ℕ} (h : s.deliver k = some t) : t.Lost ↔ s.Lost := by
  obtain ⟨a, rest, -, ⟨-, rfl⟩ | ⟨-, rfl⟩⟩ := deliver_eq_some h
  · refine lost_iff_of_children rfl fun j => ?_
    by_cases hj : a.sender = j
    · simp [hj, Child.stop_eq_dropped]
    · simp [hj]
  · refine lost_iff_of_children rfl fun j => ?_
    simp [Child.stop_eq_dropped]

theorem lost_terminate (hs : Placed div s) {child : ℕ} (h : s.terminate child = some t) :
    t.Lost ↔ s.Lost ∨ s.Drops (.terminate child) := by
  obtain ⟨mailbox, received, hchild, rfl⟩ := terminate_eq_some h
  obtain ⟨op, hop, hplace⟩ := hs.place_of_child hchild
  have hlt := (List.getElem?_eq_some_iff.mp hchild).1
  have hdrops : s.Drops (.terminate child) ↔ received = [] ∧ op.isSent = true := by
    constructor
    · rintro ⟨c, i, op', hc, hmem, hsent⟩
      cases hchild.symm.trans hc
      cases hplace with
      | waiting =>
        obtain ⟨-, rfl⟩ := Prod.mk.inj (List.mem_singleton.mp hmem)
        exact ⟨rfl, hsent⟩
      | computed => cases hmem
      | taken => cases hmem
    · rintro ⟨rfl, hsent⟩
      cases hplace with
      | waiting => exact ⟨_, child, op, hchild, List.mem_singleton_self _, hsent⟩
  rw [hdrops]
  constructor
  · rintro ⟨i, op', hop', hsent, hc⟩
    by_cases hi : child = i
    · subst hi
      rw [List.getElem?_set_self hlt] at hc
      cases hc
      cases hop.symm.trans hop'
      exact Or.inr ⟨rfl, hsent⟩
    · rw [List.getElem?_set_ne hi] at hc
      exact Or.inl ⟨i, op', hop', hsent, hc⟩
  · rintro (⟨i, op', hop', hsent, hc⟩ | ⟨rfl, hsent⟩)
    · have hi : child ≠ i := by
        rintro rfl
        cases hchild.symm.trans hc
      exact ⟨i, op', hop', hsent, (List.getElem?_set_ne hi).trans hc⟩
    · exact ⟨child, op, hop, hsent, List.getElem?_set_self hlt⟩

theorem lost_step (s : System Double) (e : Label Double) (t : System Double) (hs : Placed div s)
    (h : step div s e = some t) : t.Lost ↔ s.Lost ∨ s.Drops e := by
  cases e with
  | operation op =>
    cases h
    rw [lost_operation hs]
    simp [System.Drops]
  | process child =>
    rw [lost_process h]
    simp [System.Drops]
  | deliver k =>
    rw [lost_deliver h]
    simp [System.Drops]
  | terminate child => exact lost_terminate hs h

/-- The results of operation `i` in a log are one, and it is `r`. -/
def HandledOnce (log : List (ℕ × MathResult Double)) (i : ℕ) (r : MathResult Double) : Prop :=
  log.filter (fun x => x.1 = i) = [(i, r)]

theorem handledOnce_iff {log : List (ℕ × MathResult Double)} {i : ℕ} {r : MathResult Double}
    (hnodup : (log.map Prod.fst).Nodup) (hvalue : ∀ x ∈ log, x.1 = i → x.2 = r) :
    HandledOnce log i r ↔ i ∈ log.map Prod.fst := by
  constructor
  · intro h
    have hmem : (i, r) ∈ log.filter (fun x => x.1 = i) := h ▸ List.mem_singleton_self _
    exact List.mem_map_of_mem (f := Prod.fst) (List.mem_of_mem_filter hmem)
  · intro h
    obtain ⟨⟨j, r'⟩, hx, rfl⟩ := List.mem_map.mp h
    obtain rfl : r' = r := hvalue _ hx rfl
    obtain ⟨l₁, l₂, rfl⟩ := List.append_of_mem hx
    rw [List.map_append, List.map_cons, List.nodup_middle, List.nodup_cons, ← List.map_append]
      at hnodup
    have hother : ∀ y ∈ l₁ ++ l₂, ¬ decide (y.1 = j) = true := fun y hy he =>
      hnodup.1 (List.mem_map.mpr ⟨y, hy, of_decide_eq_true he⟩)
    show (l₁ ++ (j, r') :: l₂).filter (fun x => x.1 = j) = [(j, r')]
    rw [List.filter_append, List.filter_cons_of_pos (by simp),
      List.filter_eq_nil_iff.mpr fun y hy => hother y (List.mem_append_left _ hy),
      List.filter_eq_nil_iff.mpr fun y hy => hother y (List.mem_append_right _ hy)]
    rfl

def System.log (s : System Double) : List (ℕ × MathResult Double) :=
  s.handled.map fun h => (h.op, h.result)

/-- Each multiplication and division has its result handled exactly once. -/
def System.AllHandled (div : Double → Int32 → Double) (s : System Double) : Prop :=
  ∀ i op, s.accepted[i]? = some op → op.isSent = true →
    HandledOnce s.log i (CalculatorActor.receive div op)

theorem Placed.handledOnce_iff (hs : Placed div s) {i : ℕ} {op : MathOp Double}
    (hop : s.accepted[i]? = some op) :
    HandledOnce s.log i (CalculatorActor.receive div op) ↔ i ∈ s.done := by
  have htags : s.log.map Prod.fst = s.done := List.map_map
  rw [Calculator.handledOnce_iff (htags ▸ hs.done_nodup), htags]
  intro x hx hi
  obtain ⟨h, hh, rfl⟩ := List.mem_map.mp hx
  obtain ⟨-, op', hop', hresult⟩ := hs.handled h hh
  obtain rfl : h.op = i := hi
  cases hop.symm.trans hop'
  exact hresult

theorem Placed.allHandled_iff (hs : Placed div s) (h : s.Delivered) :
    s.AllHandled div ↔ ¬ s.Lost := by
  obtain ⟨hanswers, hmailbox⟩ := h
  constructor
  · rintro hall ⟨i, op, hop, hsent, hchild⟩
    have hdone := (hs.handledOnce_iff hop).mp (hall i op hop hsent)
    obtain ⟨op', hop', hplace⟩ := hs.place_of_child hchild
    cases hplace with
    | dropped hans hdone' => exact hdone' hdone
  · intro hlost i op hop hsent
    rw [hs.handledOnce_iff hop]
    obtain ⟨c, hc, hplace⟩ := hs.place i op hop
    cases hplace with
    | waiting => cases hmailbox _ (List.mem_of_getElem? hc)
    | computed status hans =>
      rw [System.answering, hanswers] at hans
      cases hans
    | taken status hstopped hans hdone => exact hdone.mpr hsent
    | dropped => exact absurd ⟨i, op, hop, hsent, hc⟩ hlost

theorem creation_allHandled_iff (div : Double → Int32 → Double) (es : List (Label Double))
    (s : System Double) (h : Transition.run (step div) .initial es = some s)
    (hdelivered : s.Delivered) :
    s.AllHandled div ↔ Transition.Along (step div) (fun s e => ¬ s.Drops e) .initial es := by
  rw [(placed_of_reachable ⟨es, h⟩).allHandled_iff hdelivered]
  refine (Transition.along_iff_of_step ?_ (fun s e t hr ht => ?_) es s h).symm
  · rintro ⟨i, op, hop, -⟩
    cases hop
  · exact lost_step s e t (placed_of_reachable hr) ht

end Losses

end SbtExample.Calculator
