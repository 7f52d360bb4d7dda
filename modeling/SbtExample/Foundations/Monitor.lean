import Mathlib

/-! # Monitors with a wait set

A monitor is owned by at most one thread at a time. `wait` gives it up and puts its owner into the
wait set, from which only a notification takes it out; a thread that was notified has to enter again.
A notification that finds the wait set empty has no effect. Every operation is one atomic step and
`none` where it blocks or is illegal; there are no spurious wake-ups.
-/
set_option autoImplicit false
set_option maxHeartbeats 250000

namespace SbtExample

structure Monitor (τ : Type) where
  owner : Option τ
  waitSet : List τ
  deriving DecidableEq

namespace Monitor

variable {τ : Type} [DecidableEq τ]

def free : Monitor τ := ⟨none, []⟩

/-- Blocks while the monitor is owned or the thread is still in the wait set. -/
def enter (m : Monitor τ) (thread : τ) : Option (Monitor τ) :=
  if m.owner = none ∧ thread ∉ m.waitSet then some { m with owner := some thread } else none

def exit (m : Monitor τ) (thread : τ) : Option (Monitor τ) :=
  if m.owner = some thread then some { m with owner := none } else none

def wait (m : Monitor τ) (thread : τ) : Option (Monitor τ) :=
  if m.owner = some thread then some ⟨none, m.waitSet ++ [thread]⟩ else none

def notify (m : Monitor τ) (thread : τ) : Option (Monitor τ) :=
  if m.owner = some thread then some { m with waitSet := m.waitSet.tail } else none

def notifyAll (m : Monitor τ) (thread : τ) : Option (Monitor τ) :=
  if m.owner = some thread then some { m with waitSet := [] } else none

variable {m m' : Monitor τ} {thread : τ}

theorem enter_eq_some (h : m.enter thread = some m') :
    m.owner = none ∧ thread ∉ m.waitSet ∧ m' = ⟨some thread, m.waitSet⟩ := by
  unfold enter at h
  split at h
  next hm =>
    cases h
    exact ⟨hm.1, hm.2, rfl⟩
  next => cases h

theorem exit_eq_some (h : m.exit thread = some m') :
    m.owner = some thread ∧ m' = ⟨none, m.waitSet⟩ := by
  unfold exit at h
  split at h
  next hm =>
    cases h
    exact ⟨hm, rfl⟩
  next => cases h

theorem wait_eq_some (h : m.wait thread = some m') :
    m.owner = some thread ∧ m' = ⟨none, m.waitSet ++ [thread]⟩ := by
  unfold wait at h
  split at h
  next hm =>
    cases h
    exact ⟨hm, rfl⟩
  next => cases h

theorem notify_eq_some (h : m.notify thread = some m') :
    m.owner = some thread ∧ m' = ⟨some thread, m.waitSet.tail⟩ := by
  unfold notify at h
  split at h
  next hm =>
    cases h
    exact ⟨hm, by rw [hm]⟩
  next => cases h

def passNotifyingAll (m : Monitor τ) (thread : τ) : Option (Monitor τ) :=
  ((m.enter thread).bind fun m => m.notifyAll thread).bind fun m => m.exit thread

theorem passNotifyingAll_eq_some (h : m.passNotifyingAll thread = some m') :
    m.owner = none ∧ m' = free := by
  obtain ⟨m₂, h, hexit⟩ := Option.bind_eq_some_iff.mp h
  obtain ⟨m₁, henter, hnotify⟩ := Option.bind_eq_some_iff.mp h
  obtain ⟨hfree, -, rfl⟩ := enter_eq_some henter
  rw [notifyAll, if_pos rfl] at hnotify
  cases hnotify
  obtain ⟨-, rfl⟩ := exit_eq_some hexit
  exact ⟨hfree, rfl⟩

end Monitor

end SbtExample
