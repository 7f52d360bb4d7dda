import SbtExample.Foundations.Monitor
import SbtExample.Foundations.Transition

/-! # The start-up of the client (`AkkaRpcClient`)

`getInstance` waits on the instance for the callback that the constructor registers with the
cluster. `AkkaRpcClient` is a `Thread`, started by its constructor with an empty `run`: when a
thread terminates it notifies all who wait on its object. The three threads are programs of atomic
steps; the cluster runs the callback at any time after its registration.
-/
set_option autoImplicit false
set_option maxHeartbeats 250000

namespace SbtExample.Startup

inductive Party
  | caller
  | callback
  | thread
  deriving DecidableEq

inductive Caller
  | called
  | started
  | registered
  | assigned
  | entered
  | waiting
  | resumed
  | returned
  deriving DecidableEq

/-- The `Runnable` given to `registerOnMemberUp`. -/
inductive Callback
  | unregistered
  | registered
  | read
  | entered
  | notified
  | ended
  | failed
  deriving DecidableEq

inductive ClientThread
  | unstarted
  | running
  | terminated
  deriving DecidableEq

/-- `assigned` says that the static field `instance` is not `null`. -/
structure State where
  caller : Caller
  callback : Callback
  thread : ClientThread
  assigned : Bool
  monitor : Monitor Party
  deriving DecidableEq

def State.initial : State := ⟨.called, .unregistered, .unstarted, false, .free⟩

/-- `getInstance` with the constructor; one thread calls it, and is not interrupted. -/
def State.callerStep (s : State) : Option State :=
  match s.caller with
  | .called =>
    if s.assigned then some { s with caller := .returned }
    else some { s with caller := .started, thread := .running }
  | .started => some { s with caller := .registered, callback := .registered }
  | .registered => some { s with caller := .assigned, assigned := true }
  | .assigned => (s.monitor.enter .caller).map fun m =>
      { s with caller := .entered, monitor := m }
  | .entered => (s.monitor.wait .caller).map fun m => { s with caller := .waiting, monitor := m }
  | .waiting => (s.monitor.enter .caller).map fun m => { s with caller := .resumed, monitor := m }
  | .resumed => (s.monitor.exit .caller).map fun m => { s with caller := .returned, monitor := m }
  | .returned => none

/-- `run()` of the callback: `synchronized (instance)` fails on `null`. -/
def State.callbackStep (s : State) : Option State :=
  match s.callback with
  | .unregistered => none
  | .registered =>
    if s.assigned then some { s with callback := .read } else some { s with callback := .failed }
  | .read => (s.monitor.enter .callback).map fun m =>
      { s with callback := .entered, monitor := m }
  | .entered => (s.monitor.notify .callback).map fun m =>
      { s with callback := .notified, monitor := m }
  | .notified => (s.monitor.exit .callback).map fun m =>
      { s with callback := .ended, monitor := m }
  | .ended => none
  | .failed => none

def State.threadStep (s : State) : Option State :=
  match s.thread with
  | .running => (s.monitor.passNotifyingAll .thread).map fun m =>
      { s with thread := .terminated, monitor := m }
  | _ => none

def step (s : State) : Party → Option State
  | .caller => s.callerStep
  | .callback => s.callbackStep
  | .thread => s.threadStep

abbrev Reaches (s : State) : Prop := Transition.Reachable step .initial s

/-! ## Steps, said once -/

/-- What each step does, and when it is enabled. -/
inductive Moves (s : State) : Party → State → Prop
  | finds (hc : s.caller = .called) (ha : s.assigned = true) :
      Moves s .caller { s with caller := .returned }
  | starts (hc : s.caller = .called) (ha : s.assigned = false) :
      Moves s .caller { s with caller := .started, thread := .running }
  | registers (hc : s.caller = .started) :
      Moves s .caller { s with caller := .registered, callback := .registered }
  | assigns (hc : s.caller = .registered) :
      Moves s .caller { s with caller := .assigned, assigned := true }
  | enters (hc : s.caller = .assigned) (ho : s.monitor.owner = none) :
      Moves s .caller { s with caller := .entered, monitor := ⟨some .caller, s.monitor.waitSet⟩ }
  | waits (hc : s.caller = .entered) (ho : s.monitor.owner = some .caller) :
      Moves s .caller
        { s with caller := .waiting, monitor := ⟨none, s.monitor.waitSet ++ [.caller]⟩ }
  | resumes (hc : s.caller = .waiting) (ho : s.monitor.owner = none)
      (hw : Party.caller ∉ s.monitor.waitSet) :
      Moves s .caller { s with caller := .resumed, monitor := ⟨some .caller, s.monitor.waitSet⟩ }
  | returns (hc : s.caller = .resumed) (ho : s.monitor.owner = some .caller) :
      Moves s .caller { s with caller := .returned, monitor := ⟨none, s.monitor.waitSet⟩ }
  | reads (hc : s.callback = .registered) (ha : s.assigned = true) :
      Moves s .callback { s with callback := .read }
  | fails (hc : s.callback = .registered) (ha : s.assigned = false) :
      Moves s .callback { s with callback := .failed }
  | goesIn (hc : s.callback = .read) (ho : s.monitor.owner = none) :
      Moves s .callback
        { s with callback := .entered, monitor := ⟨some .callback, s.monitor.waitSet⟩ }
  | notifies (hc : s.callback = .entered) (ho : s.monitor.owner = some .callback) :
      Moves s .callback
        { s with callback := .notified, monitor := ⟨some .callback, s.monitor.waitSet.tail⟩ }
  | goesOut (hc : s.callback = .notified) (ho : s.monitor.owner = some .callback) :
      Moves s .callback { s with callback := .ended, monitor := ⟨none, s.monitor.waitSet⟩ }
  | terminates (hc : s.thread = .running) (ho : s.monitor.owner = none) :
      Moves s .thread { s with thread := .terminated, monitor := .free }

theorem moves_of_callerStep {s t : State} (h : s.callerStep = some t) : Moves s .caller t := by
  unfold State.callerStep at h
  cases hc : s.caller with
  | called =>
    simp only [hc] at h
    split at h
    next ha =>
      cases h
      exact .finds hc ha
    next ha =>
      cases h
      exact .starts hc (by simpa using ha)
  | started =>
    simp only [hc] at h
    cases h
    exact .registers hc
  | registered =>
    simp only [hc] at h
    cases h
    exact .assigns hc
  | assigned =>
    simp only [hc] at h
    obtain ⟨m, hm, rfl⟩ := Option.map_eq_some_iff.mp h
    obtain ⟨ho, -, rfl⟩ := Monitor.enter_eq_some hm
    exact .enters hc ho
  | entered =>
    simp only [hc] at h
    obtain ⟨m, hm, rfl⟩ := Option.map_eq_some_iff.mp h
    obtain ⟨ho, rfl⟩ := Monitor.wait_eq_some hm
    exact .waits hc ho
  | waiting =>
    simp only [hc] at h
    obtain ⟨m, hm, rfl⟩ := Option.map_eq_some_iff.mp h
    obtain ⟨ho, hw, rfl⟩ := Monitor.enter_eq_some hm
    exact .resumes hc ho hw
  | resumed =>
    simp only [hc] at h
    obtain ⟨m, hm, rfl⟩ := Option.map_eq_some_iff.mp h
    obtain ⟨ho, rfl⟩ := Monitor.exit_eq_some hm
    exact .returns hc ho
  | returned =>
    simp only [hc] at h
    cases h

theorem moves_of_callbackStep {s t : State} (h : s.callbackStep = some t) :
    Moves s .callback t := by
  unfold State.callbackStep at h
  cases hc : s.callback with
  | unregistered =>
    simp only [hc] at h
    cases h
  | registered =>
    simp only [hc] at h
    split at h
    next ha =>
      cases h
      exact .reads hc ha
    next ha =>
      cases h
      exact .fails hc (by simpa using ha)
  | read =>
    simp only [hc] at h
    obtain ⟨m, hm, rfl⟩ := Option.map_eq_some_iff.mp h
    obtain ⟨ho, -, rfl⟩ := Monitor.enter_eq_some hm
    exact .goesIn hc ho
  | entered =>
    simp only [hc] at h
    obtain ⟨m, hm, rfl⟩ := Option.map_eq_some_iff.mp h
    obtain ⟨ho, rfl⟩ := Monitor.notify_eq_some hm
    exact .notifies hc ho
  | notified =>
    simp only [hc] at h
    obtain ⟨m, hm, rfl⟩ := Option.map_eq_some_iff.mp h
    obtain ⟨ho, rfl⟩ := Monitor.exit_eq_some hm
    exact .goesOut hc ho
  | ended =>
    simp only [hc] at h
    cases h
  | failed =>
    simp only [hc] at h
    cases h

theorem moves_of_threadStep {s t : State} (h : s.threadStep = some t) : Moves s .thread t := by
  unfold State.threadStep at h
  split at h
  next hc =>
    obtain ⟨m, hm, rfl⟩ := Option.map_eq_some_iff.mp h
    obtain ⟨ho, rfl⟩ := Monitor.passNotifyingAll_eq_some hm
    exact .terminates hc ho
  next => cases h

theorem moves_of_step {s t : State} {p : Party} (h : step s p = some t) : Moves s p t := by
  cases p with
  | caller => exact moves_of_callerStep h
  | callback => exact moves_of_callbackStep h
  | thread => exact moves_of_threadStep h

/-! ## Lost wake-ups -/

def Caller.hasWaited : Caller → Bool
  | .waiting | .resumed | .returned => true
  | _ => false

/-- The caller is blocked in `wait` or is going to be. -/
def State.AwaitsNotification (s : State) : Prop :=
  s.caller.hasWaited = false ∨ Party.caller ∈ s.monitor.waitSet

/-- The callback is over and so is the client's thread: nobody is left to notify the caller. -/
def State.Lost (s : State) : Prop :=
  (s.callback = .ended ∨ s.callback = .failed) ∧ s.thread = .terminated ∧ s.AwaitsNotification

def Caller.hasAssigned : Caller → Bool
  | .called | .started | .registered => false
  | _ => true

theorem Caller.hasAssigned_of_hasWaited {c : Caller} (h : c.hasWaited = true) :
    c.hasAssigned = true := by
  cases c with
  | called | started | registered | assigned | entered => cases h
  | waiting | resumed | returned => rfl

def Callback.isSpent : Callback → Bool
  | .notified | .ended | .failed => true
  | _ => false

/-- The callback and the client's thread have notified for the last time, and the caller awaits a
notification: the wake-up is lost, if not yet the callback is over. -/
def State.Doomed (s : State) : Prop :=
  s.callback.isSpent = true ∧ s.thread = .terminated ∧ s.AwaitsNotification

/-- The step is the last that could notify the caller: by it the callback notifies or fails, or the
client's thread terminates, and the other of the two is through. -/
def LastNotification (s : State) : Party → Prop
  | .caller => False
  | .callback => s.thread = .terminated ∧
      (s.callback = .entered ∨ s.callback = .registered ∧ s.assigned = false)
  | .thread => s.callback.isSpent = true

/-- The last notification does not come before the caller has called `wait`. -/
def InTime (s : State) (p : Party) : Prop := LastNotification s p → s.caller.hasWaited = true

/-! ## The invariant of every run -/

/-- `instance` is assigned by the caller only, only the caller waits, and the callback owns the
monitor while it is inside. -/
structure Inv (s : State) : Prop where
  assigned : s.assigned = s.caller.hasAssigned
  unregistered : s.caller = .called ∨ s.caller = .started → s.callback = .unregistered
  waitSet : s.monitor.waitSet = [] ∨ s.monitor.waitSet = [.caller] ∧ s.caller = .waiting
  inside : s.callback = .entered ∨ s.callback = .notified → s.monitor.owner = some .callback

theorem inv_initial : Inv .initial :=
  ⟨rfl, fun _ => rfl, Or.inl rfl, fun h => by simp [State.initial] at h⟩

theorem Inv.not_inside {s : State} (hi : Inv s) {o : Option Party} (ho : s.monitor.owner = o)
    (hne : o ≠ some .callback) : ¬ (s.callback = .entered ∨ s.callback = .notified) :=
  fun h => hne (ho ▸ hi.inside h)

theorem Inv.waitSet_nil {s : State} (hi : Inv s) (h : s.caller ≠ .waiting) :
    s.monitor.waitSet = [] := by
  rcases hi.waitSet with hw | ⟨-, hc⟩
  · exact hw
  · exact absurd hc h

theorem Inv.waitSet_tail {s : State} (hi : Inv s) : s.monitor.waitSet.tail = [] := by
  rcases hi.waitSet with hw | ⟨hw, -⟩
  · rw [hw, List.tail_nil]
  · rw [hw, List.tail_cons]

theorem Inv.registered {s : State} (hi : Inv s) (h : s.callback ≠ .unregistered) :
    ¬ (s.caller = .called ∨ s.caller = .started) := fun hc => h (hi.unregistered hc)

theorem inv_step (s : State) (p : Party) (t : State) (hi : Inv s) (h : step s p = some t) :
    Inv t := by
  have hassigned := hi.assigned
  cases moves_of_step h with
  | finds hc ha =>
    rw [hc, ha] at hassigned
    cases hassigned
  | starts hc ha =>
    exact ⟨ha, fun _ => hi.unregistered (Or.inl hc), Or.inl (hi.waitSet_nil (by simp [hc])),
      hi.inside⟩
  | registers hc =>
    rw [hc] at hassigned
    exact ⟨hassigned, by simp, Or.inl (hi.waitSet_nil (by simp [hc])), by simp⟩
  | assigns hc => exact ⟨rfl, by simp, Or.inl (hi.waitSet_nil (by simp [hc])), hi.inside⟩
  | enters hc ho =>
    rw [hc] at hassigned
    exact ⟨hassigned, by simp, Or.inl (hi.waitSet_nil (by simp [hc])),
      fun hin => absurd hin (hi.not_inside ho (by simp))⟩
  | waits hc ho =>
    rw [hc] at hassigned
    have hw : s.monitor.waitSet ++ [Party.caller] = [.caller] := by
      rw [hi.waitSet_nil (by simp [hc]), List.nil_append]
    exact ⟨hassigned, by simp, Or.inr ⟨hw, rfl⟩,
      fun hin => absurd hin (hi.not_inside ho (by simp))⟩
  | resumes hc ho hnot =>
    rw [hc] at hassigned
    have hw : s.monitor.waitSet = [] := by
      rcases hi.waitSet with hw | ⟨hw, -⟩
      · exact hw
      · exact absurd (hw ▸ List.mem_singleton_self _) hnot
    exact ⟨hassigned, by simp, Or.inl hw, fun hin => absurd hin (hi.not_inside ho (by simp))⟩
  | returns hc ho =>
    rw [hc] at hassigned
    exact ⟨hassigned, by simp, Or.inl (hi.waitSet_nil (by simp [hc])),
      fun hin => absurd hin (hi.not_inside ho (by simp))⟩
  | reads hc ha =>
    have hreg := hi.registered (by simp [hc])
    exact ⟨hassigned, fun hcaller => absurd hcaller hreg, hi.waitSet, by simp⟩
  | fails hc ha =>
    have hreg := hi.registered (by simp [hc])
    exact ⟨hassigned, fun hcaller => absurd hcaller hreg, hi.waitSet, by simp⟩
  | goesIn hc ho =>
    have hreg := hi.registered (by simp [hc])
    exact ⟨hassigned, fun hcaller => absurd hcaller hreg, hi.waitSet, fun _ => rfl⟩
  | notifies hc ho =>
    have hreg := hi.registered (by simp [hc])
    exact ⟨hassigned, fun hcaller => absurd hcaller hreg, Or.inl hi.waitSet_tail, fun _ => rfl⟩
  | goesOut hc ho =>
    have hreg := hi.registered (by simp [hc])
    exact ⟨hassigned, fun hcaller => absurd hcaller hreg, hi.waitSet, by simp⟩
  | terminates hc ho =>
    exact ⟨hassigned, hi.unregistered, Or.inl rfl,
      fun hin => absurd hin (hi.not_inside ho (by simp))⟩

theorem inv_reachable {s : State} (h : Reaches s) : Inv s :=
  h.invariant inv_initial fun s p t _ hi ht => inv_step s p t hi ht

/-! ## Notifications in time -/

theorem State.Lost.doomed {s : State} (h : s.Lost) : s.Doomed := by
  obtain ⟨hcallback, hthread, hawaits⟩ := h
  refine ⟨?_, hthread, hawaits⟩
  rcases hcallback with hc | hc
  · rw [hc]
    rfl
  · rw [hc]
    rfl

theorem not_doomed_step {s t : State} {p : Party} (hi : Inv s) (hh : ¬ s.Doomed)
    (htime : InTime s p) (h : step s p = some t) : ¬ t.Doomed := by
  rintro ⟨hspent, hthread, hawaits⟩
  cases moves_of_step h with
  | finds hc ha => exact hh ⟨hspent, hthread, Or.inl (by rw [hc]; rfl)⟩
  | starts hc ha => cases hthread
  | registers hc => cases hspent
  | assigns hc => exact hh ⟨hspent, hthread, Or.inl (by rw [hc]; rfl)⟩
  | enters hc ho => exact hh ⟨hspent, hthread, Or.inl (by rw [hc]; rfl)⟩
  | waits hc ho => exact hh ⟨hspent, hthread, Or.inl (by rw [hc]; rfl)⟩
  | resumes hc ho hnot =>
    rcases hawaits with ha | ha
    · cases ha
    · exact hnot ha
  | returns hc ho =>
    rcases hawaits with ha | ha
    · cases ha
    · exact hh ⟨hspent, hthread, Or.inr ha⟩
  | reads hc ha => cases hspent
  | fails hc ha =>
    -- the caller waits only after it has assigned the field
    have hwaited := htime ⟨hthread, Or.inr ⟨hc, ha⟩⟩
    rw [hi.assigned, Caller.hasAssigned_of_hasWaited hwaited] at ha
    cases ha
  | goesIn hc ho => cases hspent
  | notifies hc ho =>
    have hwaited := htime ⟨hthread, Or.inl hc⟩
    rcases hawaits with ha | ha
    · exact absurd (hwaited.symm.trans ha) (by simp)
    · rw [hi.waitSet_tail] at ha
      cases ha
  | goesOut hc ho => exact hh ⟨by rw [hc]; rfl, hthread, hawaits⟩
  | terminates hc ho =>
    rcases hawaits with ha | ha
    · exact absurd ((htime hspent).symm.trans ha) (by simp)
    · cases ha

/-! ## Late notifications -/

theorem doomed_of_late {s t : State} {p : Party} (h : step s p = some t) (hlate : ¬ InTime s p) :
    t.Doomed := by
  obtain ⟨hlast, hwaited⟩ := Classical.not_imp.mp hlate
  have hnot : s.caller.hasWaited = false := by simpa using hwaited
  cases moves_of_step h with
  | finds | starts | registers | assigns | enters | waits | resumes | returns => exact hlast.elim
  | reads hc ha =>
    obtain ⟨-, hc' | ⟨-, ha'⟩⟩ := hlast
    · exact absurd (hc.symm.trans hc') (by simp)
    · exact absurd (ha.symm.trans ha') (by simp)
  | fails hc ha => exact ⟨rfl, hlast.1, Or.inl hnot⟩
  | goesIn hc ho =>
    obtain ⟨-, hc' | ⟨hc', -⟩⟩ := hlast
    · exact absurd (hc.symm.trans hc') (by simp)
    · exact absurd (hc.symm.trans hc') (by simp)
  | notifies hc ho => exact ⟨rfl, hlast.1, Or.inl hnot⟩
  | goesOut hc ho => exact ⟨rfl, hlast.1, Or.inl hnot⟩
  | terminates hc ho => exact ⟨hlast, rfl, Or.inl hnot⟩

theorem Inv.registered_of_spent {s : State} (hi : Inv s) (h : s.callback.isSpent = true) :
    ¬ (s.caller = .called ∨ s.caller = .started) := by
  refine hi.registered fun hc => ?_
  rw [hc] at h
  cases h

theorem doomed_step {s t : State} {p : Party} (hi : Inv s) (hd : s.Doomed)
    (h : step s p = some t) : t.Doomed := by
  obtain ⟨hspent, hthread, hawaits⟩ := hd
  have hreg := hi.registered_of_spent hspent
  cases moves_of_step h with
  | finds hc ha => exact absurd (Or.inl hc) hreg
  | starts hc ha => exact absurd (Or.inl hc) hreg
  | registers hc => exact absurd (Or.inr hc) hreg
  | assigns hc => exact ⟨hspent, hthread, Or.inl rfl⟩
  | enters hc ho => exact ⟨hspent, hthread, Or.inl rfl⟩
  | waits hc ho =>
    exact ⟨hspent, hthread, Or.inr (List.mem_append_right _ (List.mem_singleton_self _))⟩
  | resumes hc ho hnot =>
    rcases hawaits with ha | ha
    · rw [hc] at ha
      cases ha
    · exact absurd ha hnot
  | returns hc ho =>
    rcases hawaits with ha | ha
    · rw [hc] at ha
      cases ha
    · rw [hi.waitSet_nil (by simp [hc])] at ha
      cases ha
  | reads hc ha => rw [hc] at hspent; cases hspent
  | fails hc ha => rw [hc] at hspent; cases hspent
  | goesIn hc ho => rw [hc] at hspent; cases hspent
  | notifies hc ho => rw [hc] at hspent; cases hspent
  | goesOut hc ho => exact ⟨rfl, hthread, hawaits⟩
  | terminates hc ho => rw [hc] at hthread; cases hthread

/-- When the callback has left the monitor, the wake-up is lost. -/
theorem lost_of_doomed {s : State} (hi : Inv s) (hd : s.Doomed) :
    ∃ u, Transition.Reachable step s u ∧ u.Lost := by
  obtain ⟨hspent, hthread, hawaits⟩ := hd
  cases hc : s.callback with
  | notified =>
    have howner := hi.inside (Or.inr hc)
    have hstep : step s .callback =
        some { s with callback := .ended, monitor := ⟨none, s.monitor.waitSet⟩ } := by
      simp [step, State.callbackStep, hc, Monitor.exit, howner]
    exact ⟨_, .single hstep, Or.inl rfl, hthread, hawaits⟩
  | ended => exact ⟨s, .refl step s, Or.inl hc, hthread, hawaits⟩
  | failed => exact ⟨s, .refl step s, Or.inr hc, hthread, hawaits⟩
  | unregistered => rw [hc] at hspent; cases hspent
  | registered => rw [hc] at hspent; cases hspent
  | read => rw [hc] at hspent; cases hspent
  | entered => rw [hc] at hspent; cases hspent

theorem doomed_forever {s t : State} (hs : Reaches s) (hd : s.Doomed)
    (h : Transition.Reachable step s t) : t.caller ≠ .returned := by
  have hboth : Inv t ∧ t.Doomed :=
    h.invariant (I := fun t => Inv t ∧ t.Doomed) ⟨inv_reachable hs, hd⟩
      fun s p t _ hs ht => ⟨inv_step s p t hs.1 ht, doomed_step hs.1 hs.2 ht⟩
  obtain ⟨hi, -, -, ha⟩ := hboth
  intro hc
  rcases ha with ha | ha
  · rw [hc] at ha
    cases ha
  · rw [hi.waitSet_nil (by simp [hc])] at ha
    cases ha

/-! ## Runs -/

/-- A run is doomed exactly when one of its steps notified too early. -/
theorem along_inTime_iff (es : List Party) (s : State)
    (h : Transition.run step .initial es = some s) :
    Transition.Along step InTime .initial es ↔ ¬ s.Doomed := by
  refine Transition.run_induction
    (P := fun es s => Transition.Along step InTime .initial es ↔ ¬ s.Doomed) ?_ ?_ es s h
  · exact iff_of_true trivial fun hd => nomatch hd.1
  · intro es s p t hrun ih ht
    have hi := inv_reachable ⟨es, hrun⟩
    rw [Transition.along_concat, ih]
    constructor
    · rintro ⟨hnot, htime⟩
      exact not_doomed_step hi hnot (htime s hrun) ht
    · intro hnot
      refine ⟨fun hd => hnot (doomed_step hi hd ht), fun s' hs' => ?_⟩
      cases hrun.symm.trans hs'
      by_contra hlate
      exact hnot (doomed_of_late ht hlate)

/-- A run in which every last notification comes after the caller's `wait` has not lost the wake-up;
a run in which one comes before it loses the wake-up, and the caller never returns. -/
theorem no_lost_wakeup_in_time (es : List Party) (s : State)
    (h : Transition.run step .initial es = some s) :
    (Transition.Along step InTime .initial es → ¬ s.Lost) ∧
    (¬ Transition.Along step InTime .initial es →
      ∃ u, Transition.Reachable step s u ∧ u.Lost ∧
        ∀ v, Transition.Reachable step u v → v.caller ≠ .returned) := by
  have hs : Reaches s := ⟨es, h⟩
  rw [along_inTime_iff es s h, not_not]
  refine ⟨fun hnot hl => hnot hl.doomed, fun hd => ?_⟩
  obtain ⟨u, hu, hl⟩ := lost_of_doomed (inv_reachable hs) hd
  exact ⟨u, hu, hl, fun v hv => doomed_forever (hs.trans hu) hl.doomed hv⟩

/-- The caller waits before the callback runs, and returns. -/
def lateCallback : List Party :=
  [.caller, .thread, .caller, .caller, .caller, .caller, .callback, .callback, .callback, .callback,
    .caller, .caller]

theorem no_lost_wakeup_in_time_late :
    Transition.Along step InTime .initial lateCallback ∧
      ¬ State.Lost ⟨.returned, .ended, .terminated, true, .free⟩ := by
  have hrun : Transition.run step .initial lateCallback =
      some ⟨.returned, .ended, .terminated, true, .free⟩ := by decide
  have halong : Transition.Along step InTime .initial lateCallback := by
    refine (along_inTime_iff lateCallback _ hrun).mpr ?_
    rintro ⟨-, -, ha | ha⟩
    · cases ha
    · cases ha
  exact ⟨halong, (no_lost_wakeup_in_time lateCallback _ hrun).1 halong⟩

/-- The client's thread ends at once and the callback runs between the assignment and `wait`: the
caller waits and no step is left. -/
def earlyCallback : List Party :=
  [.caller, .thread, .caller, .caller, .callback, .callback, .callback, .callback, .caller, .caller]

theorem early_callback_lost :
    ∃ s, Transition.run step .initial earlyCallback = some s ∧ s.Lost ∧ s.caller = .waiting ∧
      Transition.Quiescent step s := by
  refine ⟨⟨.waiting, .ended, .terminated, true, ⟨none, [.caller]⟩⟩, by decide, ?_, rfl, ?_⟩
  · exact ⟨Or.inl rfl, rfl, Or.inr (List.mem_singleton_self _)⟩
  · intro p
    cases p <;> rfl

end SbtExample.Startup
