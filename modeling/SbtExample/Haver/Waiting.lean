import SbtExample.Foundations.Slots
import SbtExample.Foundations.Transition
import SbtExample.Haver.Program

/-! # The client that waits for all of its blocking calls

`Client.main` sends `numCalls` blocking calls, each with a `BlockingCallResponse` as its listener,
polls the listeners until all of them are done and reports the answers. The calls wait for one of
the four threads of `HaverServer`. Main thread, pool threads and listeners interleave; a listener
that was successful makes two assignments. A future may fail at any time.
-/
set_option autoImplicit false
set_option maxHeartbeats 250000

namespace SbtExample.Haver
open Thrift Transition

namespace Waiting

/-- The work of a call on the server. -/
inductive Job
  | queued
  | running
  | finished
  deriving DecidableEq

structure BlockingCallResponse where
  b : Bool := false
  answer : Option Int32 := none
  deriving DecidableEq

/-- A call, the future the client holds, and its listener. -/
structure Pending where
  job : Job := .queued
  future : Option (Future Int32) := none
  response : BlockingCallResponse := {}

/-- Where the main thread is; `polling` is inside the `for` loop, `reporting` in the last one. -/
inductive Main
  | sending
  | polling (i count : ℕ)
  | sleeping
  | reporting (i : ℕ)
  | ended
  | nullPointerException
  deriving DecidableEq

structure State where
  main : Main := .sending
  calls : List Pending := []
  printed : List Int32 := []

inductive Label
  | main
  | start (i : ℕ)
  | finish (i : ℕ) (value : Int32)
  | fail (i : ℕ) (cause : Throwable)
  | listen (i : ℕ)

namespace BlockingCallResponse

def isDone (this : BlockingCallResponse) : Bool := this.b

/-- The next assignment of `onSuccess` or `onFailure`. -/
def run (this : BlockingCallResponse) : Future Int32 → Option BlockingCallResponse
  | .ok value =>
    if this.b then none
    else if this.answer = none then some { this with answer := some value }
    else some { this with b := true }
  | .error _ => if this.b then none else some { this with b := true }

end BlockingCallResponse

namespace Pending

def start (c : Pending) : Option Pending :=
  if c.job = .queued then some { c with job := .running } else none

/-- A future that has failed in the meantime keeps its failure. -/
def finish (c : Pending) (value : Int32) : Option Pending :=
  if c.job = .running then some { c with job := .finished, future := c.future.or (some (.ok value)) }
  else none

def fail (c : Pending) (cause : Throwable) : Option Pending :=
  if c.future = none then some { c with future := some (.error cause) } else none

def listen (c : Pending) : Option Pending := do
  let f ← c.future
  let response ← c.response.run f
  return { c with response := response }

end Pending

def threads : ℕ := 4

namespace State
variable (numCalls : ℕ)

def running (s : State) : ℕ := s.calls.countP fun c => decide (c.job = .running)

def update (s : State) (i : ℕ) (f : Pending → Option Pending) : Option State :=
  (Slots.update s.calls i f).map fun calls => { s with calls := calls }

/-- A step of the main thread. -/
def next (s : State) : Option State :=
  match s.main with
  | .sending =>
    if s.calls.length < numCalls then some { s with calls := s.calls ++ [{}] }
    else some { s with main := .polling 0 0 }
  | .polling i count =>
    match s.calls[i]? with
    | some c =>
      some { s with main := .polling (i + 1) (if c.response.isDone then count + 1 else count) }
    | none => some { s with main := if count = numCalls then .reporting 0 else .sleeping }
  | .sleeping => some { s with main := .polling 0 0 }
  | .reporting i =>
    match s.calls[i]? with
    | some c =>
      match c.response.answer with
      | some answer => some { s with main := .reporting (i + 1), printed := s.printed ++ [answer] }
      | none => some { s with main := .nullPointerException }
    | none => some { s with main := .ended }
  | .ended => none
  | .nullPointerException => none

def step (s : State) : Label → Option State
  | .main => s.next numCalls
  | .start i => if s.running < threads then s.update i Pending.start else none
  | .finish i value => s.update i (Pending.finish · value)
  | .fail i cause => s.update i (Pending.fail · cause)
  | .listen i => s.update i Pending.listen

end State

/-! ## One call -/

namespace Pending

/-- A job that has finished has resolved its future; the answer is that of the future, and is there
when `b` is set. -/
structure Sound (c : Pending) : Prop where
  resolved : c.job = .finished → c.future ≠ none
  answered : ∀ v, c.response.answer = some v → c.future = some (.ok v)
  done : c.response.b = true → ∃ f, c.future = some f ∧ c.response.answer = f.toOption

/-- The steps that a call can still be moved. -/
def work (c : Pending) : ℕ :=
  (match c.job with
    | .queued => 2
    | .running => 1
    | .finished => 0)
  + (if c.future = none then 1 else 0)
  + (if c.response.b then 0 else if c.response.answer = none then 2 else 1)

/-- What a step of the server, of the network or of the listener does to a call. -/
structure Moves (c c' : Pending) : Prop where
  sound : c'.Sound
  done : c.response.b = true → c'.response = c.response ∧ c'.future = c.future
  work : c'.work < c.work

theorem sound_new : ({} : Pending).Sound where
  resolved h := by cases h
  answered _ h := by cases h
  done h := by cases h

variable {c c' : Pending}

theorem Sound.start (h : c.Sound) (hc : c.start = some c') : Moves c c' := by
  rw [Pending.start] at hc
  split_ifs at hc with hjob
  cases hc
  refine ⟨⟨nofun, h.answered, h.done⟩, fun _ => ⟨rfl, rfl⟩, ?_⟩
  simp only [work, hjob]
  omega

theorem Sound.finish (h : c.Sound) {value : Int32} (hc : c.finish value = some c') :
    Moves c c' := by
  rw [Pending.finish] at hc
  split_ifs at hc with hjob
  cases hc
  cases hf : c.future with
  | none =>
    refine ⟨⟨fun _ => Option.some_ne_none _, fun v hv => ?_, fun hb => ?_⟩, fun hb => ?_, ?_⟩
    · rw [h.answered v hv] at hf
      cases hf
    · obtain ⟨f, hf', -⟩ := h.done hb
      rw [hf'] at hf
      cases hf
    · obtain ⟨f, hf', -⟩ := h.done hb
      rw [hf'] at hf
      cases hf
    · simp only [work, hjob, hf, Option.none_or, reduceCtorEq, if_false, if_true]
      omega
  | some f =>
    rw [Option.some_or, ← hf]
    refine ⟨⟨fun _ => hf ▸ Option.some_ne_none f, h.answered, h.done⟩, fun _ => ⟨rfl, rfl⟩, ?_⟩
    simp only [work, hjob]
    omega

theorem Sound.fail (h : c.Sound) {cause : Throwable} (hc : c.fail cause = some c') :
    Moves c c' := by
  rw [Pending.fail] at hc
  split_ifs at hc with hf
  cases hc
  have hb : c.response.b ≠ true := by
    intro hb
    obtain ⟨f, hf', -⟩ := h.done hb
    rw [hf'] at hf
    cases hf
  refine ⟨⟨fun _ => Option.some_ne_none _, fun v hv => ?_, fun h => absurd h hb⟩,
    fun h => absurd h hb, ?_⟩
  · rw [h.answered v hv] at hf
    cases hf
  · simp only [work, hf, reduceCtorEq, if_false, if_true]
    omega

theorem Sound.listen (h : c.Sound) (hc : c.listen = some c') : Moves c c' := by
  obtain ⟨f, hf, hc⟩ := Option.bind_eq_some_iff.mp hc
  obtain ⟨response, hr, hc⟩ := Option.bind_eq_some_iff.mp hc
  cases hc
  cases f with
  | ok value =>
    rw [BlockingCallResponse.run] at hr
    split_ifs at hr with hb ha
    · cases hr
      refine ⟨⟨h.resolved, fun v hv => ?_, fun h => absurd h hb⟩, fun h => absurd h hb, ?_⟩
      · cases hv
        exact hf
      · simp only [work, hb, ha, reduceCtorEq, if_false, if_true]
        omega
    · cases hr
      refine ⟨⟨h.resolved, h.answered, fun _ => ⟨_, hf, ?_⟩⟩, fun h => absurd h hb, ?_⟩
      · obtain ⟨v, hv⟩ := Option.ne_none_iff_exists'.mp ha
        have := h.answered v hv
        rw [hf] at this
        cases this
        exact hv
      · simp only [work, hb, ha, Bool.false_eq_true, if_false, if_true]
        omega
  | error cause =>
    rw [BlockingCallResponse.run] at hr
    split_ifs at hr with hb
    cases hr
    refine ⟨⟨h.resolved, h.answered, fun _ => ⟨_, hf, ?_⟩⟩, fun h => absurd h hb, ?_⟩
    · cases ha : c.response.answer with
      | none => rfl
      | some v =>
        have := h.answered v ha
        rw [hf] at this
        cases this
    · simp only [work, hb, Bool.false_eq_true, if_false, if_true]
      split_ifs <;> omega

theorem job_finish {value : Int32} (hc : c.finish value = some c') (h : c'.job = .running) :
    c.job = .running := by
  rw [Pending.finish] at hc
  split_ifs at hc
  cases hc
  cases h

theorem job_fail {cause : Throwable} (hc : c.fail cause = some c') : c'.job = c.job := by
  rw [Pending.fail] at hc
  split_ifs at hc
  cases hc
  rfl

theorem job_listen (hc : c.listen = some c') : c'.job = c.job := by
  obtain ⟨f, -, hc⟩ := Option.bind_eq_some_iff.mp hc
  obtain ⟨response, -, hc⟩ := Option.bind_eq_some_iff.mp hc
  cases hc
  rfl

end Pending

/-! ## Every reachable state -/

namespace State
variable {numCalls : ℕ} {s t : State}

theorem update_eq_some {i : ℕ} {f : Pending → Option Pending} (h : s.update i f = some t) :
    ∃ c c', s.calls[i]? = some c ∧ f c = some c' ∧ t = { s with calls := s.calls.set i c' } := by
  obtain ⟨calls, hcalls, rfl⟩ := Option.map_eq_some_iff.mp h
  obtain ⟨c, c', hc, hc', rfl⟩ := Slots.update_eq_some hcalls
  exact ⟨c, c', hc, hc', rfl⟩

/-- A step that is not of the main thread moves one call. -/
theorem moves_of_step (sound : ∀ c ∈ s.calls, c.Sound) {e : Label} (he : e ≠ .main)
    (h : s.step numCalls e = some t) :
    ∃ i c c', s.calls[i]? = some c ∧ c.Moves c' ∧
      (c'.job = .running → c.job = .running ∨ s.running < threads) ∧
      t = { s with calls := s.calls.set i c' } := by
  cases e with
  | main => exact absurd rfl he
  | start i =>
    rw [step] at h
    split_ifs at h with hthreads
    obtain ⟨c, c', hc, hc', rfl⟩ := update_eq_some h
    exact ⟨i, c, c', hc, (sound c (List.mem_of_getElem? hc)).start hc', fun _ => .inr hthreads, rfl⟩
  | finish i value =>
    obtain ⟨c, c', hc, hc', rfl⟩ := update_eq_some h
    exact ⟨i, c, c', hc, (sound c (List.mem_of_getElem? hc)).finish hc',
      fun hjob => .inl (Pending.job_finish hc' hjob), rfl⟩
  | fail i cause =>
    obtain ⟨c, c', hc, hc', rfl⟩ := update_eq_some h
    exact ⟨i, c, c', hc, (sound c (List.mem_of_getElem? hc)).fail hc',
      fun hjob => .inl (Pending.job_fail hc' ▸ hjob), rfl⟩
  | listen i =>
    obtain ⟨c, c', hc, hc', rfl⟩ := update_eq_some h
    exact ⟨i, c, c', hc, (sound c (List.mem_of_getElem? hc)).listen hc',
      fun hjob => .inl (Pending.job_listen hc' ▸ hjob), rfl⟩

/-- The listeners that are done. -/
def done (calls : List Pending) : ℕ := calls.countP fun c => c.response.isDone

def AllDone (calls : List Pending) : Prop := ∀ c ∈ calls, c.response.b = true

/-- What `getAnswer` finds. -/
def answers (calls : List Pending) : List (Option Int32) := calls.map fun c => c.response.answer

/-- What the main thread relies on where it is. -/
def Trace (numCalls : ℕ) (s : State) : Prop :=
  match s.main with
  | .sending => s.calls.length ≤ numCalls ∧ s.printed = []
  | .polling i count => s.calls.length = numCalls ∧ s.printed = [] ∧ i ≤ numCalls ∧
      count ≤ done (s.calls.take i)
  | .sleeping => s.calls.length = numCalls ∧ s.printed = []
  | .reporting i =>
    s.calls.length = numCalls ∧ AllDone s.calls ∧ s.printed.map some = (answers s.calls).take i
  | .ended => s.calls.length = numCalls ∧ AllDone s.calls ∧ s.printed.map some = answers s.calls
  | .nullPointerException => s.calls.length = numCalls ∧ AllDone s.calls ∧
      ∃ i, (answers s.calls)[i]? = some none ∧ s.printed.map some = (answers s.calls).take i

structure Inv (numCalls : ℕ) (s : State) : Prop where
  sound : ∀ c ∈ s.calls, c.Sound
  threads : s.running ≤ threads
  trace : s.Trace numCalls

theorem inv_init : Inv numCalls {} where
  sound c hc := by cases hc
  threads := Nat.zero_le _
  trace := ⟨Nat.zero_le _, rfl⟩

/-! ### The server and the listeners -/

theorem done_le_set {l : List Pending} {i : ℕ} {c' : Pending}
    (h : ∀ c, l[i]? = some c → c.response.b = true → c'.response.b = true) :
    done l ≤ done (l.set i c') := by
  induction l generalizing i with
  | nil => exact le_rfl
  | cons c l ih =>
    cases i with
    | zero =>
      have hb := h c rfl
      simp only [done, List.set_cons_zero, List.countP_cons, BlockingCallResponse.isDone]
      refine Nat.add_le_add_left ?_ _
      split_ifs with h1 h2
      · exact le_rfl
      · exact absurd (hb h1) h2
      · exact Nat.zero_le _
      · exact le_rfl
    | succ i =>
      have := ih (i := i) fun d hd => h d hd
      simp only [done, List.set_cons_succ, List.countP_cons] at this ⊢
      omega

theorem AllDone.set {l : List Pending} (h : AllDone l) {i : ℕ} {c c' : Pending}
    (hc : l[i]? = some c) (hm : c.Moves c') :
    AllDone (l.set i c') ∧ answers (l.set i c') = answers l := by
  have hb := h c (List.mem_of_getElem? hc)
  have hresponse := (hm.done hb).1
  have hb' : c'.response.b = true := by rwa [hresponse]
  exact ⟨Slots.forall_mem_set h hb', Slots.map_set_eq hc (by rw [hresponse])⟩

theorem done_take_le_set {l : List Pending} {i : ℕ} {c c' : Pending} (hc : l[i]? = some c)
    (hm : c.Moves c') (k : ℕ) : done (l.take k) ≤ done ((l.set i c').take k) := by
  rw [List.take_set]
  refine done_le_set fun d hd hb => ?_
  rw [List.getElem?_take] at hd
  split_ifs at hd
  rw [hc] at hd
  cases hd
  rwa [(hm.done hb).1]

/-- What the main thread relies on is not touched by the others. -/
theorem Trace.moves (h : s.Trace numCalls) {i : ℕ} {c c' : Pending} (hc : s.calls[i]? = some c)
    (hm : c.Moves c') : Trace numCalls { s with calls := s.calls.set i c' } := by
  have hlength : (s.calls.set i c').length = s.calls.length := List.length_set
  unfold Trace at h ⊢
  simp only [hlength]
  cases hmain : s.main with
  | sending | sleeping =>
    rw [hmain] at h
    exact h
  | polling k count =>
    rw [hmain] at h
    obtain ⟨hlen, hprinted, hk, hcount⟩ := h
    exact ⟨hlen, hprinted, hk, hcount.trans (done_take_le_set hc hm k)⟩
  | reporting | ended | nullPointerException =>
    rw [hmain] at h
    obtain ⟨hlen, hall, hprinted⟩ := h
    obtain ⟨hall', hans⟩ := hall.set hc hm
    exact ⟨hlen, hall', hans ▸ hprinted⟩

/-! ### The main thread -/

/-- When every listener was found done, they all are. -/
theorem allDone_of_done {l : List Pending} (h : l.length ≤ done l) : AllDone l := by
  have hlength : done l = l.length := le_antisymm List.countP_le_length h
  exact fun c hc => List.countP_eq_length.mp hlength c hc

theorem done_take_succ {l : List Pending} {i : ℕ} {c : Pending} (hc : l[i]? = some c) :
    done (l.take (i + 1)) = done (l.take i) + if c.response.isDone then 1 else 0 := by
  rw [done, List.take_add_one, hc, List.countP_append, Option.toList_some, List.countP_singleton]
  rfl

theorem Trace.next (h : s.Trace numCalls) (ht : s.next numCalls = some t) :
    t.Trace numCalls ∧ (t.calls = s.calls ∨ t.calls = s.calls ++ [({} : Pending)]) := by
  unfold Trace at h
  rw [State.next] at ht
  cases hmain : s.main with
  | sending =>
    simp only [hmain] at h ht
    split_ifs at ht with hlt
    · cases ht
      refine ⟨?_, .inr rfl⟩
      simp only [Trace, List.length_append, List.length_singleton]
      exact ⟨hlt, h.2⟩
    · cases ht
      exact ⟨⟨le_antisymm h.1 (Nat.le_of_not_lt hlt), h.2, Nat.zero_le _, Nat.zero_le _⟩, .inl rfl⟩
  | polling i count =>
    simp only [hmain] at h ht
    obtain ⟨hlen, hprinted, -, hcount⟩ := h
    cases hc : s.calls[i]? with
    | some c =>
      rw [hc] at ht
      cases ht
      have hi : i < numCalls := hlen ▸ (List.getElem?_eq_some_iff.mp hc).1
      refine ⟨⟨hlen, hprinted, hi, ?_⟩, Or.inl rfl⟩
      simp only [done_take_succ hc]
      split_ifs <;> omega
    | none =>
      rw [hc] at ht
      cases ht
      have hi : numCalls ≤ i := hlen ▸ List.getElem?_eq_none_iff.mp hc
      rw [List.take_of_length_le (hlen.trans_le hi)] at hcount
      refine ⟨?_, Or.inl rfl⟩
      by_cases hn : count = numCalls
      · rw [if_pos hn]
        refine ⟨hlen, allDone_of_done ?_, ?_⟩
        · rw [hlen, ← hn]
          exact hcount
        · rw [hprinted]
          rfl
      · rw [if_neg hn]
        exact ⟨hlen, hprinted⟩
  | sleeping =>
    simp only [hmain] at h ht
    cases ht
    exact ⟨⟨h.1, h.2, Nat.zero_le _, Nat.zero_le _⟩, Or.inl rfl⟩
  | reporting i =>
    simp only [hmain] at h ht
    obtain ⟨hlen, hall, hprinted⟩ := h
    cases hc : s.calls[i]? with
    | some c =>
      have hget : (answers s.calls)[i]? = some c.response.answer := by
        rw [answers, List.getElem?_map, hc, Option.map_some]
      cases hanswer : c.response.answer with
      | some v =>
        simp only [hc, hanswer] at ht
        cases ht
        refine ⟨⟨hlen, hall, ?_⟩, Or.inl rfl⟩
        rw [List.map_append, hprinted, List.take_add_one, hget, hanswer]
        rfl
      | none =>
        simp only [hc, hanswer] at ht
        cases ht
        refine ⟨⟨hlen, hall, i, ?_, hprinted⟩, Or.inl rfl⟩
        rw [hget, hanswer]
    | none =>
      simp only [hc] at ht
      cases ht
      refine ⟨⟨hlen, hall, ?_⟩, Or.inl rfl⟩
      rw [hprinted, List.take_of_length_le]
      rw [answers, List.length_map]
      exact List.getElem?_eq_none_iff.mp hc
  | ended =>
    simp only [hmain] at ht
    cases ht
  | nullPointerException =>
    simp only [hmain] at ht
    cases ht

theorem running_set {l : List Pending} {i : ℕ} {c c' : Pending} (hc : l[i]? = some c)
    (h : c'.job = .running → c.job = .running ∨ running { s with calls := l } < threads)
    (hl : running { s with calls := l } ≤ threads) :
    running { s with calls := l.set i c' } ≤ threads := by
  obtain ⟨hi, rfl⟩ := List.getElem?_eq_some_iff.mp hc
  simp only [running] at h hl ⊢
  rw [List.countP_set hi]
  have hpos : l[i].job = .running → 0 < l.countP fun c => decide (c.job = .running) :=
    fun hjob => List.countP_pos_iff.mpr ⟨_, List.getElem_mem hi, decide_eq_true hjob⟩
  simp only [decide_eq_true_eq]
  split_ifs with h1 h2 h2
  · have := hpos h1
    omega
  · omega
  · rcases h h2 with h1' | hlt
    · exact absurd h1' h1
    · exact hlt
  · omega

theorem Inv.step (h : s.Inv numCalls) {e : Label} (ht : s.step numCalls e = some t) :
    t.Inv numCalls := by
  by_cases he : e = .main
  · rw [he] at ht
    obtain ⟨htrace, hcalls⟩ := h.trace.next ht
    rcases hcalls with hcalls | hcalls
    · exact ⟨hcalls ▸ h.sound, by rw [running, hcalls]; exact h.threads, htrace⟩
    · refine ⟨fun c hc => ?_, ?_, htrace⟩
      · rw [hcalls] at hc
        rcases List.mem_append.mp hc with hc | hc
        · exact h.sound c hc
        · cases List.mem_singleton.mp hc
          exact Pending.sound_new
      · rw [running, hcalls, List.countP_append]
        exact h.threads
  · obtain ⟨i, c, c', hc, hm, hjob, rfl⟩ := moves_of_step h.sound he ht
    exact ⟨Slots.forall_mem_set h.sound hm.sound, running_set hc hjob h.threads,
      h.trace.moves hc hm⟩

theorem inv_of_reachable (h : Reachable (step numCalls) {} s) : s.Inv numCalls :=
  h.invariant inv_init fun _ _ _ _ hs ht => hs.step ht

end State
end Waiting
end SbtExample.Haver
