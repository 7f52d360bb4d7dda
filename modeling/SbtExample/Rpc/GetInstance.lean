import SbtExample.Foundations.Fairness
import SbtExample.Rpc.Startup

/-! # When `getInstance` returns

The three threads have only so much to do. While one of them has the monitor it is about to leave it
or to wait, so that the monitor itself blocks nobody for good: when all threads are served, they come
to rest, and then the caller has returned or its wake-up was lost.
-/
set_option autoImplicit false
set_option maxHeartbeats 250000

namespace SbtExample.Startup
open Transition

variable {s t : State} {p : Party}

/-! ## What is left to do -/

/-- The steps of the caller, with those of what it starts. -/
def Caller.work : Caller → ℕ
  | .called => 12
  | .started => 10
  | .registered => 5
  | .assigned => 4
  | .entered => 3
  | .waiting => 2
  | .resumed => 1
  | .returned => 0

def Callback.work : Callback → ℕ
  | .unregistered | .registered => 4
  | .read => 3
  | .entered => 2
  | .notified => 1
  | .ended | .failed => 0

def ClientThread.work : ClientThread → ℕ
  | .unstarted | .running => 1
  | .terminated => 0

def State.work (s : State) : ℕ := s.caller.work + s.callback.work + s.thread.work

theorem ClientThread.work_le (c : ClientThread) : c.work ≤ 1 := by cases c <;> simp [work]

theorem Callback.work_le (c : Callback) : c.work ≤ 4 := by cases c <;> simp [work]

theorem work_step (s : State) (p : Party) (t : State) (h : step s p = some t) :
    t.work < s.work := by
  have hthread := ClientThread.work_le t.thread
  have hcallback := Callback.work_le t.callback
  cases moves_of_step h with
  | finds hc ha | enters hc ho | waits hc ho | resumes hc ho hw | returns hc ho | assigns hc =>
    simp [State.work, hc, Caller.work]
  | starts hc ha =>
    simp only [State.work, hc, Caller.work] at hthread ⊢
    omega
  | registers hc =>
    simp only [State.work, hc, Caller.work] at hcallback ⊢
    omega
  | reads hc ha | fails hc ha | goesIn hc ho | notifies hc ho | goesOut hc ho =>
    simp [State.work, hc, Callback.work]
  | terminates hc ho => simp [State.work, hc, ClientThread.work]

/-! ## Who has the monitor -/

def Caller.isInside : Caller → Bool
  | .entered | .resumed => true
  | _ => false

def Callback.isInside : Callback → Bool
  | .entered | .notified => true
  | _ => false

/-- The party in its `synchronized` block. -/
def State.inside (s : State) : Option Party :=
  if s.caller.isInside = true then some .caller
  else if s.callback.isInside = true then some .callback
  else none

theorem Inv.callback_outside (hi : Inv s) {o : Option Party} (ho : s.monitor.owner = o)
    (hne : o ≠ some .callback) : s.callback.isInside = false := by
  have hnot := hi.not_inside ho hne
  cases hc : s.callback with
  | entered => exact absurd (.inl hc) hnot
  | notified => exact absurd (.inr hc) hnot
  | unregistered | registered | read | ended | failed => rfl

theorem caller_outside {o : Option Party} (hs : s.monitor.owner = s.inside)
    (ho : s.monitor.owner = o) (hne : o ≠ some .caller) : s.caller.isInside = false := by
  by_contra hinside
  rw [ho, State.inside, if_pos (by simpa using hinside)] at hs
  exact hne hs

theorem inside_congr (hcaller : t.caller.isInside = s.caller.isInside)
    (hcallback : t.callback.isInside = s.callback.isInside) : t.inside = s.inside := by
  rw [State.inside, State.inside, hcaller, hcallback]

/-- The monitor is always with the party inside. -/
theorem owner_step (hi : Inv s) (hs : s.monitor.owner = s.inside) (h : step s p = some t) :
    t.monitor.owner = t.inside := by
  cases moves_of_step h with
  | finds hc ha | starts hc ha | assigns hc =>
    refine hs.trans (inside_congr ?_ ?_).symm
    · rw [hc]
      rfl
    · rfl
  | registers hc =>
    refine hs.trans (inside_congr ?_ ?_).symm
    · rw [hc]
      rfl
    · rw [hi.unregistered (.inr hc)]
      rfl
  | enters hc ho | resumes hc ho hw => rfl
  | waits hc ho | returns hc ho =>
    have hcallback := hi.callback_outside ho (by simp)
    simp [State.inside, Caller.isInside, hcallback]
  | reads hc ha | fails hc ha =>
    refine hs.trans (inside_congr ?_ ?_).symm
    · rfl
    · rw [hc]
      rfl
  | goesIn hc ho =>
    have hcaller := caller_outside hs ho (by simp)
    simp [State.inside, Callback.isInside, hcaller]
  | notifies hc ho | goesOut hc ho =>
    have hcaller := caller_outside hs ho (by simp)
    simp [State.inside, Callback.isInside, hcaller]
  | terminates hc ho => exact ho.symm.trans hs

def Caller.hasRegistered : Caller → Bool
  | .called | .started => false
  | _ => true

/-- What the constructor has started by now. -/
structure Launched (s : State) : Prop where
  registered : s.caller.hasRegistered = true → s.callback ≠ .unregistered
  started : s.caller ≠ .called → s.thread ≠ .unstarted

theorem launched_step (hi : Inv s) (hs : Launched s) (h : step s p = some t) : Launched t := by
  cases moves_of_step h with
  | finds hc ha =>
    have hassigned := hi.assigned
    rw [hc, ha] at hassigned
    cases hassigned
  | starts hc ha => exact ⟨by simp [Caller.hasRegistered], by simp⟩
  | registers hc => exact ⟨by simp, fun _ => hs.started (by simp [hc])⟩
  | assigns hc | enters hc ho | waits hc ho | resumes hc ho hw | returns hc ho =>
    exact ⟨fun _ => hs.registered (by rw [hc]; rfl), fun _ => hs.started (by simp [hc])⟩
  | reads hc ha | fails hc ha | goesIn hc ho | notifies hc ho | goesOut hc ho =>
    exact ⟨by simp, hs.started⟩
  | terminates hc ho => exact ⟨hs.registered, by simp⟩

structure Orderly (s : State) : Prop where
  inv : Inv s
  owner : s.monitor.owner = s.inside
  launched : Launched s

theorem orderly_initial : Orderly .initial :=
  ⟨inv_initial, rfl, by simp [State.initial, Caller.hasRegistered], by simp [State.initial]⟩

theorem orderly_of_reaches (h : Reaches s) : Orderly s :=
  h.invariant orderly_initial fun s p t _ hs ht =>
    ⟨inv_step s p t hs.inv ht, owner_step hs.inv hs.owner ht, launched_step hs.inv hs.launched ht⟩

/-! ## Coming to rest -/

theorem Orderly.owner_none (hs : Orderly s) (h : Quiescent step s) : s.monitor.owner = none := by
  have hcaller := h .caller
  have hcallback := h .callback
  have howner := hs.owner
  rw [State.inside] at howner
  split at howner
  next hinside =>
    cases hc : s.caller <;> rw [hc] at hinside <;> cases hinside <;>
      simp [step, State.callerStep, hc, Monitor.wait, Monitor.exit, howner] at hcaller
  next =>
    split at howner
    next hinside =>
      cases hc : s.callback <;> rw [hc] at hinside <;> cases hinside <;>
        simp [step, State.callbackStep, hc, Monitor.notify, Monitor.exit, howner] at hcallback
    next => exact howner

theorem Inv.waits (hi : Inv s) (h : p ∈ s.monitor.waitSet) : p = .caller := by
  rcases hi.waitSet with hw | ⟨hw, -⟩
  · rw [hw] at h
    cases h
  · rw [hw] at h
    exact List.mem_singleton.mp h

theorem Orderly.thread_terminated (hs : Orderly s) (h : Quiescent step s)
    (hc : s.caller ≠ .called) : s.thread = .terminated := by
  have hnot : Party.thread ∉ s.monitor.waitSet := fun hw => by cases hs.inv.waits hw
  have hthread := h .thread
  cases ht : s.thread with
  | unstarted => exact absurd ht (hs.launched.started hc)
  | running =>
    simp [step, State.threadStep, ht, Monitor.passNotifyingAll, Monitor.enter, Monitor.notifyAll,
      Monitor.exit, hs.owner_none h, hnot] at hthread
  | terminated => rfl

theorem Orderly.callback_over (hs : Orderly s) (h : Quiescent step s)
    (hc : s.caller.hasRegistered = true) : s.callback = .ended ∨ s.callback = .failed := by
  have hnot : Party.callback ∉ s.monitor.waitSet := fun hw => by cases hs.inv.waits hw
  have ho := hs.owner_none h
  have hinside := hs.inv.inside
  have hcallback := h .callback
  cases hb : s.callback with
  | unregistered => exact absurd hb (hs.launched.registered hc)
  | registered => by_cases ha : s.assigned <;> simp [step, State.callbackStep, hb, ha] at hcallback
  | read => simp [step, State.callbackStep, hb, Monitor.enter, ho, hnot] at hcallback
  | entered => simp [hb, ho] at hinside
  | notified => simp [hb, ho] at hinside
  | ended => exact .inl rfl
  | failed => exact .inr rfl

/-- The monitor blocks nobody for good; only the caller can be left, in the wait set. -/
theorem Orderly.returned_or_waiting (hs : Orderly s) (h : Quiescent step s) :
    s.caller = .returned ∨ s.caller = .waiting ∧ .caller ∈ s.monitor.waitSet := by
  have ho := hs.owner_none h
  have hinside := hs.owner
  have hcaller := h .caller
  cases hc : s.caller with
  | called => by_cases ha : s.assigned <;> simp [step, State.callerStep, hc, ha] at hcaller
  | started => simp [step, State.callerStep, hc] at hcaller
  | registered => simp [step, State.callerStep, hc] at hcaller
  | assigned =>
    have hw := hs.inv.waitSet_nil (by simp [hc])
    simp [step, State.callerStep, hc, Monitor.enter, ho, hw] at hcaller
  | entered => simp [ho, State.inside, hc, Caller.isInside] at hinside
  | waiting =>
    simp only [step, State.callerStep, hc, Monitor.enter, ho] at hcaller
    simpa using hcaller
  | resumed => simp [ho, State.inside, hc, Caller.isInside] at hinside
  | returned => exact .inl rfl

theorem Orderly.returned_or_lost (hs : Orderly s) (h : Quiescent step s) :
    s.caller = .returned ∨ s.Lost := by
  rcases hs.returned_or_waiting h with hreturned | ⟨hc, hw⟩
  · exact .inl hreturned
  · exact .inr ⟨hs.callback_over h (by rw [hc]; rfl), hs.thread_terminated h (by simp [hc]), .inr hw⟩

/-! ## Executions -/

theorem returned_forever (hs : s.caller = .returned) (h : Reachable step s t) :
    t.caller = .returned := by
  refine h.invariant (I := fun s => s.caller = .returned) hs fun s p t _ hs ht => ?_
  cases moves_of_step ht with
  | finds hc | starts hc | registers hc | assigns hc | enters hc | waits hc | resumes hc
  | returns hc => cases hs.symm.trans hc
  | reads | fails | goesIn | notifies | goesOut | terminates => exact hs

section Executions
variable {x : Execution step}

theorem reaches (h0 : x.state 0 = .initial) (n : ℕ) : Reaches (x.state n) := by
  rw [Reaches, ← h0]
  exact x.reachable n

theorem not_doomed (h0 : x.state 0 = .initial)
    (htime : ∀ n p, x.label n = some p → InTime (x.state n) p) (n : ℕ) : ¬ (x.state n).Doomed := by
  induction n with
  | zero =>
    rw [h0]
    rintro ⟨hspent, -⟩
    cases hspent
  | succ n ih =>
    cases hl : x.label n with
    | none =>
      rw [x.idle hl]
      exact ih
    | some p => exact not_doomed_step (inv_reachable (reaches h0 n)) ih (htime n p hl) (x.move hl)

theorem inTime_of_returned (h0 : x.state 0 = .initial) {m : ℕ}
    (hm : (x.state m).caller = .returned) (n : ℕ) (p : Party) (hl : x.label n = some p) :
    InTime (x.state n) p := by
  rcases Nat.lt_or_ge n m with hlt | hle
  · by_contra hlate
    have hdoomed := doomed_of_late (x.move hl) hlate
    exact doomed_forever (reaches h0 (n + 1)) hdoomed (x.reachable_of_le hlt) hm
  · intro _
    rw [returned_forever hm (x.reachable_of_le hle)]
    rfl

/-- When the three threads are served, they come to rest; then the caller has returned or the wake-up
is lost. The caller returns exactly if every last notification comes after its `wait`. -/
theorem getInstance_returns_iff (x : Execution step) (h0 : x.state 0 = .initial)
    (hfair : ∀ p, x.WeaklyFair p) :
    (∃ n, Quiescent step (x.state n) ∧ ((x.state n).caller = .returned ∨ (x.state n).Lost)) ∧
    ((∃ n, (x.state n).caller = .returned) ↔
      ∀ n p, x.label n = some p → InTime (x.state n) p) := by
  obtain ⟨n, -, hquiet⟩ := x.reaches_quiescent State.work work_step hfair 0
  have hrest := (orderly_of_reaches (reaches h0 n)).returned_or_lost hquiet
  refine ⟨⟨n, hquiet, hrest⟩, fun ⟨m, hm⟩ => inTime_of_returned h0 hm, fun htime => ⟨n, ?_⟩⟩
  rcases hrest with hreturned | hlost
  · exact hreturned
  · exact absurd hlost.doomed (not_doomed h0 htime n)

end Executions

/-- The three threads in turn. -/
def inTurn (n : ℕ) : Party :=
  match n % 3 with
  | 0 => .caller
  | 1 => .callback
  | _ => .thread

def inTurnExecution : Execution step := .ofSchedule step inTurn .initial

theorem inTurn_weaklyFair (p : Party) : inTurnExecution.WeaklyFair p := by
  refine Execution.weaklyFair_ofSchedule fun n => ?_
  cases p with
  | caller => exact ⟨3 * n, by omega, by simp [inTurn]⟩
  | callback => exact ⟨3 * n + 1, by omega, by simp [inTurn]⟩
  | thread => exact ⟨3 * n + 2, by omega, by simp [inTurn]⟩

/-- The callback finds `instance` not yet assigned. -/
theorem getInstance_returns_iff_inTurn : ¬ ∃ n, (inTurnExecution.state n).caller = .returned := by
  rw [(getInstance_returns_iff inTurnExecution rfl inTurn_weaklyFair).2]
  intro htime
  have hlast : LastNotification (inTurnExecution.state 4) .callback := ⟨rfl, .inr ⟨rfl, rfl⟩⟩
  cases htime 4 .callback rfl hlast

end SbtExample.Startup
