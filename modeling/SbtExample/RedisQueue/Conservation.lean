import SbtExample.RedisQueue.Program

/-! # The queue loses, duplicates and reorders nothing

What was in the list and what was pushed is, in order, what the listener got, then what is on its
way to the listener or lost, then what is in the list.
-/
set_option autoImplicit false
set_option maxHeartbeats 250000

namespace SbtExample.RedisQueue

section Conservation
variable {Buffer : Type} {toStr : Buffer → String} {list : List Buffer} {v : Buffer}
  {s t : System Buffer}

/-! ## The conservation law -/

def System.inFlight (s : System Buffer) : List Buffer :=
  match s.listener with
  | .replied v => v.toList
  | _ => []

def System.printed (s : System Buffer) : List String :=
  s.output.filterMap fun o =>
    match o with
    | .value str => some str
    | .dot => none

def Listener.hasFailed : Listener Buffer → Bool
  | .failed _ => true
  | _ => false

structure Inv (toStr : Buffer → String) (list : List Buffer) (s : System Buffer) : Prop where
  printed : s.printed = s.received.map toStr
  conserved : list ++ s.pushed = s.received ++ s.lost ++ s.inFlight ++ s.list
  lost_le : s.lost.length ≤ 1
  lost : s.lost ≠ [] → s.listener = .failed false

theorem inv_initial : Inv toStr list (.initial list v) where
  printed := rfl
  conserved := by simp [System.initial, System.inFlight]
  lost_le := Nat.zero_le 1
  lost h := absurd rfl h

theorem Inv.lost_nil (hi : Inv toStr list s) (h : s.listener ≠ .failed false) : s.lost = [] := by
  by_contra hne
  exact h (hi.lost hne)

theorem head?_append_tail (l : List Buffer) : l.head?.toList ++ l.tail = l := by
  cases l <;> rfl

/-! ## The steps -/

theorem Inv.executePop (hi : Inv toStr list s) (h : s.executePop = some t) : Inv toStr list t := by
  unfold System.executePop at h
  split at h
  next hl =>
    cases h
    have hlost := hi.lost_nil (by simp [hl])
    have hconserved := hi.conserved
    simp only [System.inFlight, hl, hlost, List.append_nil] at hconserved
    refine ⟨hi.printed, ?_, hi.lost_le, fun hne => absurd hlost hne⟩
    simp only [System.inFlight, System.lPop, hlost, List.append_nil, List.append_assoc,
      head?_append_tail]
    exact hconserved
  next hl =>
    cases h
    have hlost := hi.lost_nil (by simp [hl])
    have hconserved := hi.conserved
    simp only [System.inFlight, hl, hlost, List.append_nil] at hconserved
    refine ⟨hi.printed, ?_, ?_, fun _ => rfl⟩
    · simp only [System.inFlight, System.lPop, hlost, List.append_nil, List.nil_append,
        List.append_assoc, head?_append_tail]
      exact hconserved
    · simp only [System.lPop, hlost, List.nil_append]
      cases s.list.head? <;> simp
  next => cases h

theorem Inv.popReply (hi : Inv toStr list s) (h : s.popReply toStr = some t) :
    Inv toStr list t := by
  unfold System.popReply at h
  split at h
  next v hl =>
    cases h
    have hlost := hi.lost_nil (by simp [hl])
    have hconserved := hi.conserved
    simp only [System.inFlight, hl, hlost, List.append_nil] at hconserved
    have hprinted := hi.printed
    unfold System.printed at hprinted
    refine ⟨?_, ?_, hi.lost_le, fun hne => absurd hlost hne⟩
    · simp only [System.printed, System.issuePop, List.filterMap_append, hprinted,
        List.filterMap_cons, List.filterMap_nil, List.map_append, List.map_cons, List.map_nil]
    · simpa [System.inFlight, System.issuePop, hlost] using hconserved
  next hl =>
    cases h
    have hlost := hi.lost_nil (by simp [hl])
    have hconserved := hi.conserved
    simp only [System.inFlight, hl] at hconserved
    have hprinted := hi.printed
    unfold System.printed at hprinted
    refine ⟨?_, hconserved, hi.lost_le, fun hne => absurd hlost hne⟩
    simp only [System.printed, List.filterMap_append, hprinted, List.filterMap_cons,
      List.filterMap_nil, List.append_nil]
  next => cases h

theorem Inv.wakeListener (hi : Inv toStr list s) (h : s.wakeListener = some t) :
    Inv toStr list t := by
  unfold System.wakeListener at h
  split at h
  next hl =>
    cases h
    have hconserved := hi.conserved
    simp only [System.inFlight, hl] at hconserved
    exact ⟨hi.printed, hconserved, hi.lost_le,
      fun hne => absurd (hi.lost_nil (by simp [hl])) hne⟩
  next => cases h

theorem Inv.failPop (hi : Inv toStr list s) (h : s.failPop = some t) : Inv toStr list t := by
  unfold System.failPop at h
  split at h
  next hl =>
    cases h
    have hconserved := hi.conserved
    simp only [System.inFlight, hl] at hconserved
    exact ⟨hi.printed, hconserved, hi.lost_le,
      fun hne => absurd (hi.lost_nil (by simp [hl])) hne⟩
  next v hl =>
    cases h
    have hlost := hi.lost_nil (by simp [hl])
    have hconserved := hi.conserved
    simp only [System.inFlight, hl] at hconserved
    refine ⟨hi.printed, ?_, ?_, fun _ => rfl⟩
    · simpa [System.inFlight] using hconserved
    · simp only [hlost, List.nil_append]
      cases v <;> simp
  next => cases h

theorem Inv.rPush (hi : Inv toStr list s) (vs : List Buffer) : Inv toStr list (s.rPush vs) := by
  refine ⟨hi.printed, ?_, hi.lost_le, hi.lost⟩
  change list ++ (s.pushed ++ vs) = s.received ++ s.lost ++ s.inFlight ++ (s.list ++ vs)
  rw [← List.append_assoc, hi.conserved, List.append_assoc]

theorem Inv.setPusher (hi : Inv toStr list s) (p : Pusher Buffer) :
    Inv toStr list { s with pusher := p } :=
  ⟨hi.printed, hi.conserved, hi.lost_le, hi.lost⟩

theorem rPush_nil (s : System Buffer) : s.rPush [] = s := by
  simp [System.rPush]

/-- A step is one of the listener's, or it pushes values, none perhaps, and moves the pusher. -/
theorem step_cases {e : Label Buffer} (h : step toStr s e = some t) :
    s.executePop = some t ∨ s.popReply toStr = some t ∨ s.wakeListener = some t ∨
      s.failPop = some t ∨ ∃ vs p, t = { s.rPush vs with pusher := p } := by
  cases e with
  | executePop => exact Or.inl h
  | popReply => exact Or.inr (Or.inl h)
  | wakeListener => exact Or.inr (Or.inr (Or.inl h))
  | failPop => exact Or.inr (Or.inr (Or.inr (Or.inl h)))
  | executePush =>
    simp only [step, System.executePush] at h
    split at h
    next v _ => cases h; exact Or.inr (Or.inr (Or.inr (Or.inr ⟨[v], _, rfl⟩)))
    next v _ => cases h; exact Or.inr (Or.inr (Or.inr (Or.inr ⟨[v], _, rfl⟩)))
    next => cases h
  | pushReply =>
    simp only [step, System.pushReply] at h
    split at h
    next => cases h; exact Or.inr (Or.inr (Or.inr (Or.inr ⟨[], _, by rw [rPush_nil]⟩)))
    next => cases h
  | wakePusher v =>
    simp only [step, System.wakePusher] at h
    split at h
    next => cases h; exact Or.inr (Or.inr (Or.inr (Or.inr ⟨[], _, by rw [rPush_nil]⟩)))
    next => cases h
  | failPush =>
    simp only [step, System.failPush] at h
    split at h
    next => cases h; exact Or.inr (Or.inr (Or.inr (Or.inr ⟨[], _, by rw [rPush_nil]⟩)))
    next => cases h; exact Or.inr (Or.inr (Or.inr (Or.inr ⟨[], _, by rw [rPush_nil]⟩)))
    next => cases h
  | foreignPush vs =>
    cases h
    exact Or.inr (Or.inr (Or.inr (Or.inr ⟨vs, s.pusher, rfl⟩)))

theorem inv_step (s : System Buffer) (e : Label Buffer) (t : System Buffer)
    (hi : Inv toStr list s) (h : step toStr s e = some t) : Inv toStr list t := by
  rcases step_cases h with h | h | h | h | ⟨vs, p, rfl⟩
  · exact hi.executePop h
  · exact hi.popReply h
  · exact hi.wakeListener h
  · exact hi.failPop h
  · exact (hi.rPush vs).setPusher p

theorem inv_reachable (h : Reaches toStr list v s) : Inv toStr list s :=
  h.invariant inv_initial fun s e t _ hi ht => inv_step s e t hi ht

/-! ## After a failure -/

theorem failed_step (s : System Buffer) (e : Label Buffer) (t : System Buffer)
    (hf : s.listener.hasFailed = true) (h : step toStr s e = some t) :
    t.listener.hasFailed = true ∧ t.popsIssued = s.popsIssued ∧ t.received = s.received := by
  obtain ⟨popLeft, hl⟩ : ∃ popLeft, s.listener = .failed popLeft := by
    cases hl : s.listener with
    | failed popLeft => exact ⟨popLeft, rfl⟩
    | popping => rw [hl] at hf; cases hf
    | replied v => rw [hl] at hf; cases hf
    | pausing => rw [hl] at hf; cases hf
  rcases step_cases h with h | h | h | h | ⟨vs, p, rfl⟩
  · cases popLeft with
    | true =>
      simp only [System.executePop, hl] at h
      cases h
      exact ⟨rfl, rfl, rfl⟩
    | false => simp [System.executePop, hl] at h
  · simp [System.popReply, hl] at h
  · simp [System.wakeListener, hl] at h
  · simp [System.failPop, hl] at h
  · exact ⟨hf, rfl, rfl⟩

theorem failed_forever (hf : s.listener.hasFailed = true)
    (h : Transition.Reachable (step toStr) s t) :
    t.popsIssued = s.popsIssued ∧ t.received = s.received := by
  have hall : t.listener.hasFailed = true ∧ t.popsIssued = s.popsIssued ∧
      t.received = s.received := by
    refine h.invariant (I := fun t => t.listener.hasFailed = true ∧
      t.popsIssued = s.popsIssued ∧ t.received = s.received) ⟨hf, rfl, rfl⟩ ?_
    rintro u e w - ⟨hu, hpops, hreceived⟩ hw
    obtain ⟨hw1, hw2, hw3⟩ := failed_step u e w hu hw
    exact ⟨hw1, hw2.trans hpops, hw3.trans hreceived⟩
  exact hall.2

/-! ## Conservation -/

/-- The values printed, in their order, then the one in flight, then the list: what the list started
with and what was pushed. One value is missing at most, and only after the listener failed; then it
issues no further pop and gets no further value. -/
structure Conserved (toStr : Buffer → String) (list : List Buffer) (s : System Buffer) : Prop where
  printed : s.printed = s.received.map toStr
  conserved : s.lost = [] → list ++ s.pushed = s.received ++ s.inFlight ++ s.list
  with_lost : list ++ s.pushed = s.received ++ s.lost ++ s.inFlight ++ s.list
  in_flight_le : s.inFlight.length ≤ 1
  lost_le : s.lost.length ≤ 1
  lost_failed : s.lost ≠ [] → s.listener.hasFailed = true
  no_further_pop : s.listener.hasFailed = true → ∀ t, Transition.Reachable (step toStr) s t →
    t.popsIssued = s.popsIssued ∧ t.received = s.received

theorem inFlight_length (s : System Buffer) : s.inFlight.length ≤ 1 := by
  unfold System.inFlight
  cases s.listener with
  | replied v => cases v <;> simp
  | popping => simp
  | pausing => simp
  | failed popLeft => simp

theorem queue_conserved (toStr : Buffer → String) (list : List Buffer) (v : Buffer)
    (s : System Buffer) (h : Reaches toStr list v s) : Conserved toStr list s := by
  have hi := inv_reachable h
  refine
    { printed := hi.printed
      conserved := fun hlost => ?_
      with_lost := hi.conserved
      in_flight_le := inFlight_length s
      lost_le := hi.lost_le
      lost_failed := fun hne => by rw [hi.lost hne]; rfl
      no_further_pop := fun hf t ht => failed_forever hf ht }
  have hconserved := hi.conserved
  rwa [hlost, List.append_nil] at hconserved

end Conservation

/-- Two values are printed around an empty poll and a foreign push, a third is popped when the
listener fails. -/
def failingListener : List (Label String) :=
  [.executePop, .popReply, .executePop, .executePush, .popReply, .wakeListener,
    .foreignPush ["7", "8"], .pushReply, .executePop, .popReply, .executePop, .failPop,
    .wakePusher "9", .executePush]

theorem queue_conserved_failing :
    ∃ s, Transition.run (step id) (.initial ["1"] "2") failingListener = some s ∧
      (s.printed, s.lost, s.list) = (["1", "2"], ["7"], ["8", "9"]) ∧ Conserved id ["1"] s := by
  have hrun : (Transition.run (step id) (.initial ["1"] "2") failingListener).map
      (fun s => (s.printed, s.lost, s.list)) = some (["1", "2"], ["7"], ["8", "9"]) := by decide
  obtain ⟨s, hs, hstate⟩ := Option.map_eq_some_iff.mp hrun
  exact ⟨s, hs, hstate, queue_conserved id ["1"] "2" s ⟨failingListener, hs⟩⟩

end SbtExample.RedisQueue
