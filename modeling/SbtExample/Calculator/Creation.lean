import SbtExample.Calculator.Children

/-! # No calculator is leaked or confused

Each child stays with the operation it was made for: the operation waits in its mailbox, or its
result is on its way, or the result has been handled and the child was stopped.
-/
set_option autoImplicit false
set_option maxHeartbeats 250000

namespace SbtExample.Calculator
open Bag

section Creation
variable {Double : Type} {div : Double → Int32 → Double} {s t : System Double}

def Label.IsSent : Label Double → Prop
  | .operation op => op.isSent = true
  | _ => True

/-! ## The invariant -/

/-- Where operation `i` is. -/
inductive Stage (s : System Double) (i : ℕ) (op : MathOp Double) : Child Double → Prop
  | waiting (answering : i ∉ s.answering) (done : i ∉ s.done) :
      Stage s i op ⟨[(i, op)], [], .alive⟩
  | computed (answering : i ∈ s.answering) (done : i ∉ s.done) :
      Stage s i op ⟨[], [(i, op)], .alive⟩
  | finished (status : Status) (stopped : status ≠ .alive) (answering : i ∉ s.answering)
      (done : i ∈ s.done) : Stage s i op ⟨[], [(i, op)], status⟩

structure Inv (div : Double → Int32 → Double) (s : System Double) : Prop where
  length : s.children.length = s.accepted.length
  stage : ∀ i op, s.accepted[i]? = some op → ∃ c, s.children[i]? = some c ∧ Stage s i op c
  sent : ∀ op ∈ s.accepted, op.isSent = true
  answers : ∀ a ∈ s.answers, a.sender = a.op ∧
    ∃ op, s.accepted[a.op]? = some op ∧ a.result = CalculatorActor.receive div op
  handled : ∀ h ∈ s.handled, h.stopped = h.op ∧
    ∃ op, s.accepted[h.op]? = some op ∧ h.result = CalculatorActor.receive div op
  answering_nodup : s.answering.Nodup
  done_nodup : s.done.Nodup

/-! ## Runs without additions and subtractions -/

/-- No result is unmatched, so that a child is told to stop by its own result only. -/
structure Clean (s : System Double) : Prop where
  sent : ∀ op ∈ s.accepted, op.isSent = true
  stopped : ∀ i c, s.children[i]? = some c → c.status ≠ .alive → i ∈ s.done

theorem clean_initial : Clean (System.initial : System Double) where
  sent _ h := nomatch h
  stopped _ _ h := nomatch h

theorem Clean.set {child : ℕ} {c c' : Child Double} (hs : Clean s)
    (hchild : s.children[child]? = some c) (hstatus : c'.status ≠ .alive → c.status ≠ .alive)
    (i : ℕ) (c'' : Child Double) (h : (s.children.set child c')[i]? = some c'')
    (hstopped : c''.status ≠ .alive) : i ∈ s.done := by
  by_cases hi : child = i
  · subst hi
    rw [List.getElem?_set_self (List.getElem?_eq_some_iff.mp hchild).1] at h
    cases h
    exact hs.stopped child c hchild (hstatus hstopped)
  · rw [List.getElem?_set_ne hi] at h
    exact hs.stopped i c'' h hstopped

theorem Clean.operation (hs : Clean s) {op : MathOp Double} (hop : op.isSent = true) :
    Clean (s.operation op) := by
  constructor
  · intro op' h
    rcases List.mem_append.mp h with h | h
    · exact hs.sent op' h
    · rw [List.mem_singleton.mp h]
      exact hop
  · intro i c h hstopped
    rcases getElem?_concat_cases h with hold | ⟨-, rfl⟩
    · exact hs.stopped i c hold hstopped
    · exact absurd rfl hstopped

theorem Clean.deliver (hs : Clean s) (hp : Placed div s) {k : ℕ} (h : s.deliver k = some t) :
    Clean t := by
  obtain ⟨a, rest, hpick, hcases⟩ := deliver_eq_some h
  obtain ⟨hsender, op, hop, hresult⟩ := hp.answers a (pick_mem hpick)
  have hsent := hs.sent op (List.mem_of_getElem? hop)
  rw [hresult, matches_receive, hsent] at hcases
  rcases hcases with ⟨-, rfl⟩ | ⟨hm, -⟩
  · refine ⟨hs.sent, fun i c hc hstopped => ?_⟩
    by_cases hi : a.op = i
    · rw [← hi]
      exact List.mem_cons_self ..
    · refine List.mem_cons_of_mem _ (hs.stopped i c ?_ hstopped)
      simpa [hsender, hi] using hc
  · cases hm

theorem clean_step (s : System Double) (e : Label Double) (t : System Double) (hp : Placed div s)
    (hs : Clean s) (he : e.IsSent) (h : step div s e = some t) : Clean t := by
  cases e with
  | operation op =>
    cases h
    exact hs.operation he
  | process child =>
    obtain ⟨i, op, rest, received, status, hchild, -, rfl⟩ := process_eq_some h
    exact ⟨hs.sent, hs.set hchild id⟩
  | deliver k => exact hs.deliver hp h
  | terminate child =>
    obtain ⟨mailbox, received, hchild, rfl⟩ := terminate_eq_some h
    exact ⟨hs.sent, hs.set hchild fun _ => by simp⟩

theorem Place.stage (hs : Clean s) {i : ℕ} {op : MathOp Double} {c : Child Double}
    (hop : s.accepted[i]? = some op) (hc : s.children[i]? = some c) (h : Place s i op c) :
    Stage s i op c := by
  have halive : i ∉ s.done → c.status = .alive := fun hdone => by
    by_contra hstopped
    exact hdone (hs.stopped i c hc hstopped)
  cases h with
  | waiting status hr ha hd =>
    obtain rfl : status = .alive := halive hd
    exact .waiting ha hd
  | computed status ha hd =>
    obtain rfl : status = .alive := halive hd
    exact .computed ha hd
  | taken status hstopped ha hd =>
    exact .finished status hstopped ha (hd.mpr (hs.sent op (List.mem_of_getElem? hop)))
  | dropped ha hd => cases halive hd

theorem inv_of_run {es : List (Label Double)}
    (hes : ∀ op, Label.operation op ∈ es → op.isSent = true)
    (h : Transition.run (step div) .initial es = some s) : Inv div s := by
  have hp := placed_of_reachable ⟨es, h⟩
  have hs : Clean s := by
    refine Transition.run_induction
      (P := fun es s => (∀ op, Label.operation op ∈ es → op.isSent = true) → Clean s)
      (fun _ => clean_initial) ?_ es s h hes
    intro es s e t hr ih ht hes
    refine clean_step s e t (placed_of_reachable ⟨es, hr⟩)
      (ih fun op hop => hes op (List.mem_append_left _ hop)) ?_ ht
    cases e with
    | operation op => exact hes op (List.mem_append_right _ (List.mem_singleton_self _))
    | process child => trivial
    | deliver k => trivial
    | terminate child => trivial
  exact
    { length := hp.length
      stage := fun i op hop => by
        obtain ⟨c, hc, hplace⟩ := hp.place i op hop
        exact ⟨c, hc, hplace.stage hs hop hc⟩
      sent := hs.sent
      answers := hp.answers
      handled := hp.handled
      answering_nodup := hp.answering_nodup
      done_nodup := hp.done_nodup }

theorem Inv.stage_of_child (hi : Inv div s) {i : ℕ} {c : Child Double}
    (h : s.children[i]? = some c) : ∃ op, s.accepted[i]? = some op ∧ Stage s i op c := by
  have hlt : i < s.accepted.length := hi.length ▸ (List.getElem?_eq_some_iff.mp h).1
  have hop := List.getElem?_eq_getElem hlt
  obtain ⟨c', hc', hstage⟩ := hi.stage i _ hop
  rw [h] at hc'
  cases hc'
  exact ⟨_, hop, hstage⟩

/-! ## Safety -/

/-- The result carries the operands of the operation and its value; `Int` products wrap. -/
def Answers (div : Double → Int32 → Double) : MathOp Double → MathResult Double → Prop
  | .multiply n1 n2, .multiplication n1' n2' r =>
    n1' = n1 ∧ n2' = n2 ∧ r.toInt = (n1.toInt * n2.toInt).bmod (2 ^ 32)
  | .divide n1 n2, .division n1' n2' r => n1' = n1 ∧ n2' = n2 ∧ r = div n1 n2
  | _, _ => False

def System.live (s : System Double) : Set ℕ :=
  {c | ∃ child, s.children[c]? = some child ∧ child.status = .alive}

def System.pending (s : System Double) : Set ℕ := {i | i < s.accepted.length ∧ i ∉ s.done}

def Child.given (c : Child Double) : List (ℕ × MathOp Double) := c.mailbox ++ c.received

/-- Nothing but another operation can happen. -/
def Settled (div : Double → Int32 → Double) (s : System Double) : Prop :=
  ∀ e, (∀ op, e ≠ .operation op) → step div s e = none

structure Safe (div : Double → Int32 → Double) (s : System Double) : Prop where
  correspondence : ∃ f : ℕ → ℕ, Set.BijOn f s.live s.pending ∧
    ∀ c ∈ s.live, ∃ child op, s.children[c]? = some child ∧ child.given = [(f c, op)]
  one_operation : ∀ child ∈ s.children, ∃ i op, s.accepted[i]? = some op ∧ child.given = [(i, op)]
  handled_value : ∀ h ∈ s.handled, ∃ op, s.accepted[h.op]? = some op ∧ Answers div op h.result
  handled_once : s.done.Nodup
  stopped_computed : ∀ h ∈ s.handled, ∃ child op, s.children[h.stopped]? = some child ∧
    child.received = [(h.op, op)] ∧ child.status ≠ .alive
  none_live : s.pending = ∅ → s.live = ∅
  none_left : Settled div s → s.pending = ∅ ∧ ∀ child ∈ s.children, child.status = .terminated

theorem answers_receive {op : MathOp Double} (h : op.isSent = true) :
    Answers div op (CalculatorActor.receive div op) := by
  cases op with
  | add n1 n2 => cases h
  | subtract n1 n2 => cases h
  | multiply n1 n2 => exact ⟨rfl, rfl, Int32.toInt_mul n1 n2⟩
  | divide n1 n2 => exact ⟨rfl, rfl, rfl⟩

theorem Stage.given {i : ℕ} {op : MathOp Double} {c : Child Double} (h : Stage s i op c) :
    c.given = [(i, op)] := by
  cases h <;> rfl

theorem Stage.alive_iff {i : ℕ} {op : MathOp Double} {c : Child Double} (h : Stage s i op c) :
    c.status = .alive ↔ i ∉ s.done := by
  cases h with
  | waiting ha hd => simpa using hd
  | computed ha hd => simpa using hd
  | finished status hs ha hd => simp [hs, hd]

theorem Inv.live_eq_pending (hi : Inv div s) : s.live = s.pending := by
  ext i
  constructor
  · rintro ⟨c, hc, halive⟩
    obtain ⟨op, hop, hstage⟩ := hi.stage_of_child hc
    exact ⟨(List.getElem?_eq_some_iff.mp hop).1, hstage.alive_iff.mp halive⟩
  · rintro ⟨hlt, hdone⟩
    obtain ⟨c, hc, hstage⟩ := hi.stage i _ (List.getElem?_eq_getElem hlt)
    exact ⟨c, hc, hstage.alive_iff.mpr hdone⟩

theorem Inv.settled (hi : Inv div s) (h : Settled div s) {i : ℕ} {op : MathOp Double}
    {c : Child Double} (hop : s.accepted[i]? = some op) (hc : s.children[i]? = some c) :
    i ∈ s.done ∧ c.status = .terminated := by
  obtain ⟨c', hc', hstage⟩ := hi.stage i op hop
  cases hc.symm.trans hc'
  cases hstage with
  | waiting ha hd =>
    have hnone := h (.process i) (by simp)
    simp [step, System.process, hc] at hnone
  | computed ha hd =>
    have hnone := h (.deliver 0) (by simp)
    simp only [step, System.deliver, Option.map_eq_none_iff] at hnone
    rw [System.answering, eq_nil_of_pick_none hnone] at ha
    cases ha
  | finished status hs ha hd =>
    refine ⟨hd, ?_⟩
    cases status with
    | alive => exact absurd rfl hs
    | stopping =>
      have hnone := h (.terminate i) (by simp)
      simp [step, System.terminate, hc] at hnone
    | terminated => rfl

/-- No calculator is leaked or confused, in every run of multiplications and divisions. -/
theorem creation_protocol (div : Double → Int32 → Double) (es : List (Label Double))
    (s : System Double) (hes : ∀ op, Label.operation op ∈ es → op.isSent = true)
    (h : Transition.run (step div) .initial es = some s) : Safe div s := by
  have hi := inv_of_run hes h
  refine
    { correspondence := ⟨id, ?_, fun c hc => ?_⟩
      one_operation := fun child hchild => ?_
      handled_value := fun a ha => ?_
      handled_once := hi.done_nodup
      stopped_computed := fun a ha => ?_
      none_live := fun hpending => hi.live_eq_pending.trans hpending
      none_left := fun hsettled => ⟨?_, fun child hchild => ?_⟩ }
  · rw [hi.live_eq_pending]
    exact Set.bijOn_id s.pending
  · obtain ⟨child, hchild, -⟩ := hc
    obtain ⟨op, -, hstage⟩ := hi.stage_of_child hchild
    exact ⟨child, op, hchild, hstage.given⟩
  · obtain ⟨i, hchild⟩ := List.mem_iff_getElem?.mp hchild
    obtain ⟨op, hop, hstage⟩ := hi.stage_of_child hchild
    exact ⟨i, op, hop, hstage.given⟩
  · obtain ⟨-, op, hop, hresult⟩ := hi.handled a ha
    rw [hresult]
    exact ⟨op, hop, answers_receive (hi.sent op (List.mem_of_getElem? hop))⟩
  · obtain ⟨hstopped, op, hop, -⟩ := hi.handled a ha
    obtain ⟨c, hc, hstage⟩ := hi.stage a.op op hop
    have hdone : a.op ∈ s.done := List.mem_map_of_mem ha
    rw [hstopped]
    cases hstage with
    | waiting hans hd => exact absurd hdone hd
    | computed hans hd => exact absurd hdone hd
    | finished status hs hans hd => exact ⟨_, op, hc, rfl, hs⟩
  · ext i
    simp only [Set.mem_empty_iff_false, iff_false]
    rintro ⟨hlt, hdone⟩
    have hop := List.getElem?_eq_getElem hlt
    obtain ⟨c, hc, -⟩ := hi.stage i _ hop
    exact hdone (hi.settled hsettled hop hc).1
  · obtain ⟨i, hchild⟩ := List.mem_iff_getElem?.mp hchild
    obtain ⟨op, hop, -⟩ := hi.stage_of_child hchild
    exact (hi.settled hsettled hop hchild).2

end Creation

/-- Two operations, answered in the other order. -/
def twoOperations : List (Label ℤ) :=
  [.operation (.multiply 65536 65537), .operation (.divide 6 2), .process 1, .process 0, .deliver 1,
    .terminate 1, .deliver 0, .terminate 0]

theorem creation_protocol_two :
    ∃ s, Transition.run (step fun a b => a / b.toInt) .initial twoOperations = some s ∧
      s.handled.map Handled.result = [.multiplication 65536 65537 65536, .division 6 2 3] ∧
      Safe (fun a b => a / b.toInt) s := by
  have hrun : (Transition.run (step fun a b => a / b.toInt) .initial twoOperations).map
      (fun s => s.handled.map Handled.result) =
        some [.multiplication 65536 65537 65536, .division 6 2 3] := by decide
  obtain ⟨s, hs, hresults⟩ := Option.map_eq_some_iff.mp hrun
  refine ⟨s, hs, hresults, creation_protocol _ twoOperations s ?_ hs⟩
  intro op hop
  simp only [twoOperations, List.mem_cons, Label.operation.injEq, reduceCtorEq, false_or] at hop
  rcases hop with rfl | rfl | hop
  · rfl
  · rfl
  · cases hop

end SbtExample.Calculator
