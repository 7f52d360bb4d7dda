import SbtExample.Calculator.Program

/-! # Where each operation is

For any mix of operations, each child stays with the one it was made for: the operation waits in its
mailbox, or its result is on its way, or the result was taken and the child told to stop, or the
child terminated with the operation in its mailbox.
-/
set_option autoImplicit false
set_option maxHeartbeats 250000

namespace SbtExample.Calculator
open Bag

section Children
variable {Double : Type} {div : Double → Int32 → Double} {s t : System Double}

/-- The operations that `CreationApplication` sends. -/
def MathOp.isSent : MathOp Double → Bool
  | .multiply _ _ | .divide _ _ => true
  | .add _ _ | .subtract _ _ => false

def System.answering (s : System Double) : List ℕ := s.answers.map Answer.op

def System.done (s : System Double) : List ℕ := s.handled.map Handled.op

inductive Place (s : System Double) (i : ℕ) (op : MathOp Double) : Child Double → Prop
  | waiting (status : Status) (running : status ≠ .terminated) (answering : i ∉ s.answering)
      (done : i ∉ s.done) : Place s i op ⟨[(i, op)], [], status⟩
  | computed (status : Status) (answering : i ∈ s.answering) (done : i ∉ s.done) :
      Place s i op ⟨[], [(i, op)], status⟩
  | taken (status : Status) (stopped : status ≠ .alive) (answering : i ∉ s.answering)
      (done : i ∈ s.done ↔ op.isSent = true) : Place s i op ⟨[], [(i, op)], status⟩
  | dropped (answering : i ∉ s.answering) (done : i ∉ s.done) :
      Place s i op ⟨[], [], .terminated⟩

structure Placed (div : Double → Int32 → Double) (s : System Double) : Prop where
  length : s.children.length = s.accepted.length
  place : ∀ i op, s.accepted[i]? = some op → ∃ c, s.children[i]? = some c ∧ Place s i op c
  answers : ∀ a ∈ s.answers, a.sender = a.op ∧
    ∃ op, s.accepted[a.op]? = some op ∧ a.result = CalculatorActor.receive div op
  handled : ∀ h ∈ s.handled, h.stopped = h.op ∧
    ∃ op, s.accepted[h.op]? = some op ∧ h.result = CalculatorActor.receive div op
  answering_nodup : s.answering.Nodup
  done_nodup : s.done.Nodup

theorem placed_initial : Placed div (System.initial : System Double) where
  length := rfl
  place _ _ h := nomatch h
  answers _ h := nomatch h
  handled _ h := nomatch h
  answering_nodup := List.nodup_nil
  done_nodup := List.nodup_nil

theorem Placed.answering_lt (hs : Placed div s) {i : ℕ} (h : i ∈ s.answering) :
    i < s.accepted.length := by
  obtain ⟨a, ha, rfl⟩ := List.mem_map.mp h
  obtain ⟨-, op, hop, -⟩ := hs.answers a ha
  exact (List.getElem?_eq_some_iff.mp hop).1

theorem Placed.done_lt (hs : Placed div s) {i : ℕ} (h : i ∈ s.done) : i < s.accepted.length := by
  obtain ⟨a, ha, rfl⟩ := List.mem_map.mp h
  obtain ⟨-, op, hop, -⟩ := hs.handled a ha
  exact (List.getElem?_eq_some_iff.mp hop).1

theorem Placed.place_of_child (hs : Placed div s) {i : ℕ} {c : Child Double}
    (h : s.children[i]? = some c) : ∃ op, s.accepted[i]? = some op ∧ Place s i op c := by
  have hlt : i < s.accepted.length := hs.length ▸ (List.getElem?_eq_some_iff.mp h).1
  have hop := List.getElem?_eq_getElem hlt
  obtain ⟨c', hc', hplace⟩ := hs.place i _ hop
  rw [h] at hc'
  cases hc'
  exact ⟨_, hop, hplace⟩

theorem Place.congr {i : ℕ} {op : MathOp Double} {c : Child Double} (h : Place s i op c)
    (hanswering : i ∈ t.answering ↔ i ∈ s.answering) (hdone : i ∈ t.done ↔ i ∈ s.done) :
    Place t i op c := by
  cases h with
  | waiting status hr ha hd => exact .waiting status hr (by rwa [hanswering]) (by rwa [hdone])
  | computed status ha hd => exact .computed status (by rwa [hanswering]) (by rwa [hdone])
  | taken status hs ha hd => exact .taken status hs (by rwa [hanswering]) (by rwa [hdone])
  | dropped ha hd => exact .dropped (by rwa [hanswering]) (by rwa [hdone])

theorem Place.stop {i : ℕ} {op : MathOp Double} {c : Child Double} (h : Place s i op c) :
    Place s i op c.stop := by
  cases h with
  | waiting status hr ha hd =>
    cases status with
    | alive => exact .waiting .stopping (by simp) ha hd
    | stopping => exact .waiting .stopping hr ha hd
    | terminated => exact absurd rfl hr
  | computed status ha hd =>
    cases status with
    | alive => exact .computed .stopping ha hd
    | stopping => exact .computed .stopping ha hd
    | terminated => exact .computed .terminated ha hd
  | taken status hs ha hd =>
    cases status with
    | alive => exact absurd rfl hs
    | stopping => exact .taken .stopping hs ha hd
    | terminated => exact .taken .terminated hs ha hd
  | dropped ha hd => exact .dropped ha hd

/-- Only a child whose result is on its way has one on its way. -/
theorem Place.of_answering {i : ℕ} {op : MathOp Double} {c : Child Double} (h : Place s i op c)
    (hi : i ∈ s.answering) : i ∉ s.done ∧ ∃ status, c = ⟨[], [(i, op)], status⟩ := by
  cases h with
  | waiting status hr ha hd => exact absurd hi ha
  | computed status ha hd => exact ⟨hd, status, rfl⟩
  | taken status hs ha hd => exact absurd hi ha
  | dropped ha hd => exact absurd hi ha

theorem matches_receive (op : MathOp Double) :
    CreationActor.matches (CalculatorActor.receive div op) = op.isSent := by
  cases op <;> rfl

/-! ## The steps -/

theorem Placed.operation (hs : Placed div s) (op : MathOp Double) :
    Placed div (s.operation op) := by
  refine
    { length := by simp [System.operation, hs.length]
      place := ?_
      answers := fun a ha => ?_
      handled := fun h hh => ?_
      answering_nodup := hs.answering_nodup
      done_nodup := hs.done_nodup }
  · intro i op' h
    rcases getElem?_concat_cases h with hold | ⟨rfl, rfl⟩
    · obtain ⟨c, hc, hplace⟩ := hs.place i op' hold
      exact ⟨c, getElem?_concat_of_some _ hc, hplace.congr Iff.rfl Iff.rfl⟩
    · refine ⟨⟨[(s.accepted.length, op')], [], .alive⟩, ?_, .waiting .alive (by simp) ?_ ?_⟩
      · simp only [System.operation, ← hs.length, List.getElem?_concat_length]
      · exact fun hmem => absurd (hs.answering_lt hmem) (lt_irrefl _)
      · exact fun hmem => absurd (hs.done_lt hmem) (lt_irrefl _)
  · obtain ⟨hsender, op', hop', hresult⟩ := hs.answers a ha
    exact ⟨hsender, op', getElem?_concat_of_some _ hop', hresult⟩
  · obtain ⟨hstopped, op', hop', hresult⟩ := hs.handled h hh
    exact ⟨hstopped, op', getElem?_concat_of_some _ hop', hresult⟩

theorem process_eq_some {child : ℕ} (h : s.process div child = some t) :
    ∃ i op rest received status, s.children[child]? = some ⟨(i, op) :: rest, received, status⟩ ∧
      status ≠ .terminated ∧ t = { s with
        children := s.children.set child ⟨rest, received ++ [(i, op)], status⟩
        answers := ⟨i, child, CalculatorActor.receive div op⟩ :: s.answers } := by
  unfold System.process at h
  split at h
  next i op rest received status hchild =>
    split at h
    next => cases h
    next hstatus =>
      cases h
      exact ⟨i, op, rest, received, status, hchild, hstatus, rfl⟩
  next => cases h

theorem terminate_eq_some {child : ℕ} (h : s.terminate child = some t) :
    ∃ mailbox received, s.children[child]? = some ⟨mailbox, received, .stopping⟩ ∧
      t = { s with children := s.children.set child ⟨[], received, .terminated⟩ } := by
  unfold System.terminate at h
  split at h
  next mailbox received hchild =>
    cases h
    exact ⟨mailbox, received, hchild, rfl⟩
  next => cases h

theorem deliver_eq_some {k : ℕ} (h : s.deliver k = some t) :
    ∃ a rest, pick s.answers k = some (a, rest) ∧
      (CreationActor.matches a.result = true ∧ t = { s with
        answers := rest
        children := s.children.modify a.sender Child.stop
        handled := ⟨a.op, a.result, a.sender⟩ :: s.handled } ∨
      CreationActor.matches a.result = false ∧
        t = { s with answers := rest, children := s.children.map Child.stop }) := by
  obtain ⟨⟨a, rest⟩, hp, ht⟩ := Option.map_eq_some_iff.mp h
  refine ⟨a, rest, hp, ?_⟩
  cases hm : CreationActor.matches a.result with
  | true =>
    simp only [hm, if_true] at ht
    exact Or.inl ⟨rfl, ht.symm⟩
  | false =>
    simp only [hm, Bool.false_eq_true, if_false] at ht
    exact Or.inr ⟨rfl, ht.symm⟩

/-- One child is replaced, and the others stay where they are. -/
theorem Placed.place_set (hs : Placed div s) {child : ℕ} {c : Child Double}
    (hchild : child < s.children.length)
    (hnew : ∀ op, s.accepted[child]? = some op → Place t child op c)
    (hold : ∀ i op c, i ≠ child → Place s i op c → Place t i op c) (i : ℕ) (op : MathOp Double)
    (hop : s.accepted[i]? = some op) :
    ∃ c', (s.children.set child c)[i]? = some c' ∧ Place t i op c' := by
  by_cases hi : child = i
  · subst hi
    exact ⟨c, List.getElem?_set_self hchild, hnew op hop⟩
  · obtain ⟨c', hc', hplace⟩ := hs.place i op hop
    exact ⟨c', by rw [List.getElem?_set_ne hi, hc'], hold i op c' (Ne.symm hi) hplace⟩

theorem Placed.process (hs : Placed div s) {child : ℕ} (h : s.process div child = some t) :
    Placed div t := by
  obtain ⟨i, op, rest, received, status, hchild, hstatus, rfl⟩ := process_eq_some h
  obtain ⟨op', hop', hplace⟩ := hs.place_of_child hchild
  cases hplace with
  | waiting _ hr hans hdone =>
    refine
      { length := by rw [List.length_set, hs.length]
        place := hs.place_set (List.getElem?_eq_some_iff.mp hchild).1 (fun op'' hop'' => ?_)
          fun i op c hi hplace => hplace.congr (by simp [System.answering, hi]) Iff.rfl
        answers := ?_
        handled := hs.handled
        answering_nodup := List.nodup_cons.mpr ⟨hans, hs.answering_nodup⟩
        done_nodup := hs.done_nodup }
    · cases hop'.symm.trans hop''
      exact .computed status (List.mem_cons_self ..) hdone
    · intro a ha
      rcases List.mem_cons.mp ha with rfl | ha
      · exact ⟨rfl, op, hop', rfl⟩
      · exact hs.answers a ha

theorem Placed.terminate (hs : Placed div s) {child : ℕ} (h : s.terminate child = some t) :
    Placed div t := by
  obtain ⟨mailbox, received, hchild, rfl⟩ := terminate_eq_some h
  obtain ⟨op, hop, hplace⟩ := hs.place_of_child hchild
  refine
    { hs with
      length := by rw [List.length_set, hs.length]
      place := hs.place_set (List.getElem?_eq_some_iff.mp hchild).1 (fun op' hop' => ?_)
        fun i op c _ hplace => hplace.congr Iff.rfl Iff.rfl }
  cases hop.symm.trans hop'
  cases hplace with
  | waiting _ hr ha hd => exact .dropped ha hd
  | computed _ ha hd => exact .computed .terminated ha hd
  | taken _ hstopped ha hd => exact .taken .terminated (by simp) ha hd

/-- The operation whose result is taken off the list of answers. -/
theorem Placed.picked (hs : Placed div s) {k : ℕ} {a : Answer Double} {rest : List (Answer Double)}
    (hp : pick s.answers k = some (a, rest)) :
    a.op ∉ rest.map Answer.op ∧ (∀ i, i ∈ s.answering ↔ i = a.op ∨ i ∈ rest.map Answer.op) ∧
      ∃ op status, s.accepted[a.op]? = some op ∧ a.result = CalculatorActor.receive div op ∧
        s.children[a.op]? = some ⟨[], [(a.op, op)], status⟩ ∧ a.op ∉ s.done := by
  have hnodup : (a.op :: rest.map Answer.op).Nodup :=
    (pick_map Answer.op hp).nodup_iff.mp hs.answering_nodup
  have hanswering : ∀ i, i ∈ s.answering ↔ i = a.op ∨ i ∈ rest.map Answer.op := by
    intro i
    rw [System.answering, (pick_map Answer.op hp).mem_iff, List.mem_cons]
  obtain ⟨-, op, hop, hresult⟩ := hs.answers a (pick_mem hp)
  obtain ⟨c, hc, hplace⟩ := hs.place a.op op hop
  obtain ⟨hdone, status, rfl⟩ := hplace.of_answering ((hanswering a.op).mpr (Or.inl rfl))
  exact ⟨(List.nodup_cons.mp hnodup).1, hanswering, op, status, hop, hresult, hc, hdone⟩

theorem Child.stop_status {c : Child Double} : c.stop.status ≠ .alive := by
  rcases c with ⟨mailbox, received, _ | _ | _⟩ <;> simp [Child.stop]

theorem Child.stop_computed (x : ℕ × MathOp Double) (status : Status) :
    (⟨[], [x], status⟩ : Child Double).stop =
      ⟨[], [x], (⟨[], [x], status⟩ : Child Double).stop.status⟩ := by
  cases status <;> rfl

theorem Placed.deliver (hs : Placed div s) {k : ℕ} (h : s.deliver k = some t) : Placed div t := by
  obtain ⟨a, rest, hp, hcases⟩ := deliver_eq_some h
  obtain ⟨hnotin, hanswering, op, status, hop, hresult, hchild, hdone⟩ := hs.picked hp
  obtain ⟨hsender, -⟩ := hs.answers a (pick_mem hp)
  have hnodup := (hs.answering_nodup.sublist ((pick_sublist hp).map Answer.op))
  rw [hresult, matches_receive] at hcases
  rcases hcases with ⟨hm, rfl⟩ | ⟨hm, rfl⟩
  · refine
      { length := by rw [List.length_modify, hs.length]
        place := fun i op' hop' => ?_
        answers := fun a' ha' => hs.answers a' (pick_rest_mem hp ha')
        handled := ?_
        answering_nodup := hnodup
        done_nodup := List.nodup_cons.mpr ⟨hdone, hs.done_nodup⟩ }
    · by_cases hi : i = a.op
      · subst hi
        cases hop.symm.trans hop'
        refine ⟨_, by rw [hsender, List.getElem?_modify_eq, hchild]; rfl, ?_⟩
        rw [Child.stop_computed]
        exact .taken _ Child.stop_status hnotin (iff_of_true (List.mem_cons_self ..) hm)
      · obtain ⟨c, hc, hplace⟩ := hs.place i op' hop'
        refine ⟨c, ?_, hplace.congr ?_ ?_⟩
        · simp [hsender, Ne.symm hi, hc]
        · rw [hanswering]
          simp [System.answering, hi]
        · simp [System.done, hi]
    · intro h hh
      rcases List.mem_cons.mp hh with rfl | hh
      · exact ⟨hsender, op, hop, rfl⟩
      · exact hs.handled h hh
  · refine
      { length := by rw [List.length_map, hs.length]
        place := fun i op' hop' => ?_
        answers := fun a' ha' => hs.answers a' (pick_rest_mem hp ha')
        handled := hs.handled
        answering_nodup := hnodup
        done_nodup := hs.done_nodup }
    by_cases hi : i = a.op
    · subst hi
      cases hop.symm.trans hop'
      refine ⟨_, by rw [List.getElem?_map, hchild]; rfl, ?_⟩
      rw [Child.stop_computed]
      exact .taken _ Child.stop_status hnotin (iff_of_false hdone (by simp [hm]))
    · obtain ⟨c, hc, hplace⟩ := hs.place i op' hop'
      refine ⟨c.stop, by rw [List.getElem?_map, hc]; rfl, hplace.stop.congr ?_ Iff.rfl⟩
      rw [hanswering]
      simp [System.answering, hi]

theorem placed_step (s : System Double) (e : Label Double) (t : System Double) (hs : Placed div s)
    (h : step div s e = some t) : Placed div t := by
  cases e with
  | operation op =>
    cases h
    exact hs.operation op
  | process child => exact hs.process h
  | deliver k => exact hs.deliver h
  | terminate child => exact hs.terminate h

theorem placed_of_reachable (h : Transition.Reachable (step div) .initial s) : Placed div s :=
  h.invariant placed_initial fun s e t _ hs ht => placed_step s e t hs ht

end Children

end SbtExample.Calculator
