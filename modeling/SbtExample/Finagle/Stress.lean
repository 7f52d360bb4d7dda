import SbtExample.Foundations.Bag
import SbtExample.Foundations.MachineInt
import SbtExample.Foundations.Slots
import SbtExample.Foundations.Transition

/-! # The stress program

`Stress.main`: `concurrency` loops send the same request one after the other and count what comes
back in shared counters; when all loops have ended the counters are reported. A future is resolved
at any time, so that the loops interleave; `onSuccess` or `handle` and `ensure` are steps of their
own. `Status` is the status of a response; nothing looks at the exception of a request that failed.
-/
set_option autoImplicit false
set_option maxHeartbeats 250000

namespace SbtExample.Finagle.Stress
open Bag MachineInt Transition

/-- How often `Future.times` and `Future.parallel` run their argument. -/
def times (n : Int32) : ℕ := n.toInt.toNat

inductive Phase
  | ready
  | waiting
  | settled
  deriving DecidableEq

/-- One of the loops: the requests it has still to send, and where its last one is. -/
structure Worker where
  left : ℕ
  phase : Phase := .ready
  deriving DecidableEq

structure Report (Status : Type) where
  responses : Status → Int64
  completedRequests : Int32
  errors : Int32

structure State (Status : Type) where
  workers : List Worker
  responses : Status → Int64 := fun _ => 0
  errors : Int32 := 0
  completedRequests : Int32 := 0
  report : Option (Report Status) := none

inductive Label (Status : Type)
  | send (worker : ℕ)
  | onSuccess (worker : ℕ) (status : Status)
  | handle (worker : ℕ)
  | ensure (worker : ℕ)
  | print

namespace Worker

def send (w : Worker) : Option Worker :=
  if w.phase = .ready ∧ 0 < w.left then some ⟨w.left - 1, .waiting⟩ else none

def settle (w : Worker) : Option Worker :=
  if w.phase = .waiting then some { w with phase := .settled } else none

def ensure (w : Worker) : Option Worker :=
  if w.phase = .settled then some { w with phase := .ready } else none

/-- The future of the loop is resolved. -/
def Ended (w : Worker) : Prop := w.phase = .ready ∧ w.left = 0

instance (w : Worker) : Decidable w.Ended := inferInstanceAs (Decidable (_ ∧ _))

end Worker

section Program
variable {Status : Type} [DecidableEq Status]

/-- `totalRequests / concurrency` is evaluated by every loop, so not at all when there is none. -/
def initial (concurrency totalRequests : Int32) : State Status where
  workers := List.replicate (times concurrency) { left := times (totalRequests / concurrency) }

def step (s : State Status) : Label Status → Option (State Status)
  | .send worker =>
    (Slots.update s.workers worker Worker.send).map fun workers => { s with workers := workers }
  | .onSuccess worker status =>
    (Slots.update s.workers worker Worker.settle).map fun workers =>
      { s with
        workers := workers
        responses := Function.update s.responses status (s.responses status + 1) }
  | .handle worker =>
    (Slots.update s.workers worker Worker.settle).map fun workers =>
      { s with workers := workers, errors := s.errors + 1 }
  | .ensure worker =>
    (Slots.update s.workers worker Worker.ensure).map fun workers =>
      { s with workers := workers, completedRequests := s.completedRequests + 1 }
  | .print =>
    if s.report.isNone ∧ ∀ w ∈ s.workers, w.Ended then
      some { s with report := some ⟨s.responses, s.completedRequests, s.errors⟩ }
    else none

end Program

/-! ## What a run did -/

section Counts
variable {Status : Type} [DecidableEq Status]

namespace Label

def isSend : Label Status → Bool
  | .send _ => true
  | _ => false

def isResponse : Label Status → Bool
  | .onSuccess _ _ => true
  | _ => false

def hasStatus (status : Status) : Label Status → Bool
  | .onSuccess _ status' => decide (status' = status)
  | _ => false

def isError : Label Status → Bool
  | .handle _ => true
  | _ => false

def isEnsure : Label Status → Bool
  | .ensure _ => true
  | _ => false

end Label

/-- The requests sent, answered and failed in a run, and those that have passed `ensure`. -/
def sends (es : List (Label Status)) : ℕ := es.countP Label.isSend
def responded (es : List (Label Status)) : ℕ := es.countP Label.isResponse
def respondedWith (status : Status) (es : List (Label Status)) : ℕ :=
  es.countP (Label.hasStatus status)
def failed (es : List (Label Status)) : ℕ := es.countP Label.isError
def completed (es : List (Label Status)) : ℕ := es.countP Label.isEnsure

end Counts

/-! ## The accounts -/

namespace Worker

def waits (w : Worker) : ℕ := if w.phase = .waiting then 1 else 0
def settles (w : Worker) : ℕ := if w.phase = .settled then 1 else 0

theorem waits_add_settles_le (w : Worker) : w.waits + w.settles ≤ 1 := by
  obtain ⟨left, phase⟩ := w
  cases phase <;> simp [waits, settles]

end Worker

def total (f : Worker → ℕ) (workers : List Worker) : ℕ := (workers.map f).sum

theorem total_le (workers : List Worker) :
    total Worker.waits workers + total Worker.settles workers ≤ workers.length := by
  induction workers with
  | nil => exact le_rfl
  | cons w workers ih =>
    have := w.waits_add_settles_le
    simp only [total, List.map_cons, List.sum_cons, List.length_cons] at ih ⊢
    omega

/-- Every request that the loops have to send is accounted for. -/
structure Balance (c q sent answered completed : ℕ) (workers : List Worker) : Prop where
  length : workers.length = c
  left : total Worker.left workers + sent = c * q
  waiting : answered + total Worker.waits workers = sent
  settled : completed + total Worker.settles workers = answered

section Balance
variable {c q sent answered completed i : ℕ} {workers : List Worker} {w w' : Worker}

theorem balance_initial (c q : ℕ) : Balance c q 0 0 0 (List.replicate c { left := q }) where
  length := List.length_replicate
  left := by simp [total]
  waiting := by simp [total, Worker.waits]
  settled := by simp [total, Worker.settles]

/-- A step of one loop changes the totals as it changes that loop. -/
theorem Balance.set (h : Balance c q sent answered completed workers)
    (hw : workers[i]? = some w) {sent' answered' completed' : ℕ}
    (left : w'.left + sent' = w.left + sent)
    (waiting : answered' + w'.waits + sent = answered + w.waits + sent')
    (settled : completed' + w'.settles + answered = completed + w.settles + answered') :
    Balance c q sent' answered' completed' (workers.set i w') := by
  have hleft := Slots.sum_map_set (b := w') Worker.left hw
  have hwaits := Slots.sum_map_set (b := w') Worker.waits hw
  have hsettles := Slots.sum_map_set (b := w') Worker.settles hw
  obtain ⟨hlength, hl, hwait, hsettle⟩ := h
  simp only [total] at hl hwait hsettle
  refine ⟨by rw [List.length_set, hlength], ?_, ?_, ?_⟩ <;> simp only [total] <;> omega

theorem Balance.send (h : Balance c q sent answered completed workers)
    (hw : workers[i]? = some w) (hw' : w.send = some w') :
    Balance c q (sent + 1) answered completed (workers.set i w') ∧ ¬ w.Ended := by
  rw [Worker.send] at hw'
  split_ifs at hw' with hready
  cases hw'
  obtain ⟨hphase, hleft⟩ := hready
  refine ⟨h.set hw ?_ ?_ ?_, fun he => hleft.ne' he.2⟩
  · change w.left - 1 + (sent + 1) = _
    omega
  · simp only [Worker.waits, hphase, reduceCtorEq, if_true, if_false]
    omega
  · simp only [Worker.settles, hphase, reduceCtorEq, if_false]

theorem Balance.settle (h : Balance c q sent answered completed workers)
    (hw : workers[i]? = some w) (hw' : w.settle = some w') :
    Balance c q sent (answered + 1) completed (workers.set i w') ∧ ¬ w.Ended := by
  rw [Worker.settle] at hw'
  split_ifs at hw' with hphase
  cases hw'
  refine ⟨h.set hw rfl ?_ ?_, fun he => ?_⟩
  · simp only [Worker.waits, hphase, reduceCtorEq, if_true, if_false]
  · simp only [Worker.settles, hphase, reduceCtorEq, if_true, if_false]
    omega
  · have := he.1
    rw [hphase] at this
    cases this

theorem Balance.ensure (h : Balance c q sent answered completed workers)
    (hw : workers[i]? = some w) (hw' : w.ensure = some w') :
    Balance c q sent answered (completed + 1) (workers.set i w') ∧ ¬ w.Ended := by
  rw [Worker.ensure] at hw'
  split_ifs at hw' with hphase
  cases hw'
  refine ⟨h.set hw rfl ?_ ?_, fun he => ?_⟩
  · simp only [Worker.waits, hphase, reduceCtorEq, if_false]
  · simp only [Worker.settles, hphase, reduceCtorEq, if_true, if_false]
  · have := he.1
    rw [hphase] at this
    cases this

/-- Nothing is left when every loop has ended. -/
theorem Balance.ended (h : Balance c q sent answered completed workers)
    (hended : ∀ w ∈ workers, w.Ended) : completed = c * q ∧ answered = c * q ∧ sent = c * q := by
  have hzero : ∀ f : Worker → ℕ, (∀ w, w.Ended → f w = 0) → total f workers = 0 := by
    intro f hf
    refine List.sum_eq_zero fun n hn => ?_
    obtain ⟨w, hw, rfl⟩ := List.mem_map.mp hn
    exact hf w (hended w hw)
  have hleft := hzero Worker.left fun w he => he.2
  have hwaits := hzero Worker.waits fun w he => by rw [Worker.waits, he.1, if_neg nofun]
  have hsettles := hzero Worker.settles fun w he => by rw [Worker.settles, he.1, if_neg nofun]
  have h1 := h.left
  have h2 := h.waiting
  have h3 := h.settled
  omega

end Balance

/-! ## Every run -/

section Runs
variable {Status : Type} [DecidableEq Status]

/-- The requests are accounted for and the counters count the run. -/
structure Accounts (c q : ℕ) (es : List (Label Status)) (s : State Status) : Prop where
  balance : Balance c q (sends es) (responded es + failed es) (completed es) s.workers
  responses : ∀ status, s.responses status = .ofNat (respondedWith status es)
  errors : s.errors = .ofNat (failed es)
  completedRequests : s.completedRequests = .ofNat (completed es)
  report : ∀ r, s.report = some r → (∀ w ∈ s.workers, w.Ended) ∧
    r = ⟨s.responses, s.completedRequests, s.errors⟩

theorem accounts_initial (concurrency totalRequests : Int32) :
    Accounts (times concurrency) (times (totalRequests / concurrency)) []
      (initial concurrency totalRequests : State Status) where
  balance := balance_initial _ _
  responses _ := rfl
  errors := rfl
  completedRequests := rfl
  report _ h := by cases h

variable {c q : ℕ} {es : List (Label Status)} {s t : State Status}

/-- A loop that moves had not ended, so nothing has been reported. -/
theorem Accounts.unreported (h : Accounts c q es s) {i : ℕ} {w : Worker}
    (hw : s.workers[i]? = some w) (hended : ¬ w.Ended) (r : Report Status) : s.report ≠ some r :=
  fun hr => hended ((h.report r hr).1 w (List.mem_of_getElem? hw))

/-- What a step adds to the counters. -/
theorem counters_step {e : Label Status} (ht : step s e = some t) :
    (∀ status, t.responses status = s.responses status + if e.hasStatus status then 1 else 0) ∧
    t.errors = s.errors + (if e.isError then 1 else 0) ∧
    t.completedRequests = s.completedRequests + if e.isEnsure then 1 else 0 := by
  cases e with
  | send i =>
    obtain ⟨workers, -, rfl⟩ := Option.map_eq_some_iff.mp ht
    simp [Label.hasStatus, Label.isError, Label.isEnsure]
  | onSuccess i status =>
    obtain ⟨workers, -, rfl⟩ := Option.map_eq_some_iff.mp ht
    refine ⟨fun status' => ?_, by simp [Label.isError], by simp [Label.isEnsure]⟩
    by_cases hstatus : status' = status
    · subst hstatus
      simp [Label.hasStatus]
    · simp [Label.hasStatus, Function.update_of_ne hstatus, Ne.symm hstatus]
  | handle i =>
    obtain ⟨workers, -, rfl⟩ := Option.map_eq_some_iff.mp ht
    simp [Label.hasStatus, Label.isError, Label.isEnsure]
  | ensure i =>
    obtain ⟨workers, -, rfl⟩ := Option.map_eq_some_iff.mp ht
    simp [Label.hasStatus, Label.isError, Label.isEnsure]
  | print =>
    rw [Stress.step] at ht
    split_ifs at ht
    cases ht
    simp [Label.hasStatus, Label.isError, Label.isEnsure]

theorem Accounts.workers_step (h : Accounts c q es s) {e : Label Status} (ht : step s e = some t) :
    Balance c q (sends (es ++ [e])) (responded (es ++ [e]) + failed (es ++ [e]))
        (completed (es ++ [e])) t.workers ∧
      ∀ r, t.report = some r → (∀ w ∈ t.workers, w.Ended) ∧
        r = ⟨t.responses, t.completedRequests, t.errors⟩ := by
  simp only [sends, responded, failed, completed, countP_concat]
  cases e with
  | send i =>
    obtain ⟨workers, hworkers, rfl⟩ := Option.map_eq_some_iff.mp ht
    obtain ⟨w, w', hw, hw', rfl⟩ := Slots.update_eq_some hworkers
    obtain ⟨hbalance, hended⟩ := h.balance.send hw hw'
    exact ⟨hbalance, fun r hr => absurd hr (h.unreported hw hended r)⟩
  | onSuccess i status =>
    obtain ⟨workers, hworkers, rfl⟩ := Option.map_eq_some_iff.mp ht
    obtain ⟨w, w', hw, hw', rfl⟩ := Slots.update_eq_some hworkers
    obtain ⟨hbalance, hended⟩ := h.balance.settle hw hw'
    rw [Nat.add_right_comm] at hbalance
    exact ⟨hbalance, fun r hr => absurd hr (h.unreported hw hended r)⟩
  | handle i =>
    obtain ⟨workers, hworkers, rfl⟩ := Option.map_eq_some_iff.mp ht
    obtain ⟨w, w', hw, hw', rfl⟩ := Slots.update_eq_some hworkers
    obtain ⟨hbalance, hended⟩ := h.balance.settle hw hw'
    exact ⟨hbalance, fun r hr => absurd hr (h.unreported hw hended r)⟩
  | ensure i =>
    obtain ⟨workers, hworkers, rfl⟩ := Option.map_eq_some_iff.mp ht
    obtain ⟨w, w', hw, hw', rfl⟩ := Slots.update_eq_some hworkers
    obtain ⟨hbalance, hended⟩ := h.balance.ensure hw hw'
    exact ⟨hbalance, fun r hr => absurd hr (h.unreported hw hended r)⟩
  | print =>
    rw [Stress.step] at ht
    split_ifs at ht with hended
    cases ht
    refine ⟨h.balance, fun r hr => ?_⟩
    cases hr
    exact ⟨hended.2, rfl⟩

theorem Accounts.step (h : Accounts c q es s) {e : Label Status} (ht : step s e = some t) :
    Accounts c q (es ++ [e]) t := by
  obtain ⟨hresponses, herrors, hcompleted⟩ := counters_step ht
  obtain ⟨hbalance, hreport⟩ := h.workers_step ht
  refine ⟨hbalance, fun status => ?_, ?_, ?_, hreport⟩
  · rw [hresponses, h.responses, respondedWith, respondedWith, countP_concat, Int64.ofNat_add]
    split <;> rfl
  · rw [herrors, h.errors, failed, failed, countP_concat, Int32.ofNat_add]
    split <;> rfl
  · rw [hcompleted, h.completedRequests, completed, completed, countP_concat, Int32.ofNat_add]
    split <;> rfl

/-! ### The end of a run -/

/-- The steps that a loop has still to make. -/
def Worker.work (w : Worker) : ℕ := 3 * w.left + 2 * w.waits + w.settles

def work (s : State Status) : ℕ :=
  total Worker.work s.workers + if s.report.isNone then 1 else 0

omit [DecidableEq Status] in
theorem work_update {f : Worker → Option Worker} (hf : ∀ w w', f w = some w' → w'.work < w.work)
    {i : ℕ} {workers : List Worker} (h : Slots.update s.workers i f = some workers) :
    total Worker.work workers < total Worker.work s.workers := by
  obtain ⟨w, w', hw, hw', rfl⟩ := Slots.update_eq_some h
  exact Slots.sum_map_set_lt Worker.work hw (hf w w' hw')

theorem Worker.work_send (w w' : Worker) (h : w.send = some w') : w'.work < w.work := by
  rw [Worker.send] at h
  split_ifs at h with hready
  cases h
  obtain ⟨hphase, hleft⟩ := hready
  simp only [Worker.work, Worker.waits, Worker.settles, hphase, reduceCtorEq, if_true, if_false]
  omega

theorem Worker.work_settle (w w' : Worker) (h : w.settle = some w') : w'.work < w.work := by
  rw [Worker.settle] at h
  split_ifs at h with hphase
  cases h
  simp only [Worker.work, Worker.waits, Worker.settles, hphase, reduceCtorEq, if_true, if_false]
  omega

theorem Worker.work_ensure (w w' : Worker) (h : w.ensure = some w') : w'.work < w.work := by
  rw [Worker.ensure] at h
  split_ifs at h with hphase
  cases h
  simp only [Worker.work, Worker.waits, Worker.settles, hphase, reduceCtorEq, if_true, if_false]
  omega

theorem work_step {e : Label Status} (ht : step s e = some t) : work t < work s := by
  cases e with
  | send i =>
    obtain ⟨workers, hworkers, rfl⟩ := Option.map_eq_some_iff.mp ht
    exact Nat.add_lt_add_right (work_update Worker.work_send hworkers) _
  | onSuccess i status =>
    obtain ⟨workers, hworkers, rfl⟩ := Option.map_eq_some_iff.mp ht
    exact Nat.add_lt_add_right (work_update Worker.work_settle hworkers) _
  | handle i =>
    obtain ⟨workers, hworkers, rfl⟩ := Option.map_eq_some_iff.mp ht
    exact Nat.add_lt_add_right (work_update Worker.work_settle hworkers) _
  | ensure i =>
    obtain ⟨workers, hworkers, rfl⟩ := Option.map_eq_some_iff.mp ht
    exact Nat.add_lt_add_right (work_update Worker.work_ensure hworkers) _
  | print =>
    rw [step] at ht
    split_ifs at ht with hended
    cases ht
    rw [work, work, if_pos hended.1]
    exact Nat.lt_succ_self _

/-- As long as nothing is reported, a loop can move or the report can be printed. -/
theorem report_of_quiescent (h : Quiescent step s) :
    ∃ r, s.report = some r := by
  by_contra hnone
  have hreport : s.report.isNone = true := by
    rw [Option.isNone_iff_eq_none]
    exact Option.eq_none_iff_forall_ne_some.mpr fun r hr => hnone ⟨r, hr⟩
  by_cases hended : ∀ w ∈ s.workers, w.Ended
  · have hprint := h .print
    rw [step, if_pos ⟨hreport, hended⟩] at hprint
    cases hprint
  · obtain ⟨w, hw, hnot⟩ : ∃ w ∈ s.workers, ¬ w.Ended := by
      simpa using hended
    obtain ⟨i, hi⟩ := List.mem_iff_getElem?.mp hw
    have hidle : ∀ f : Worker → Option Worker, f w ≠ none → Slots.update s.workers i f ≠ none :=
      fun f hf => Slots.update_ne_none hi hf
    cases hphase : w.phase with
    | ready =>
      have hleft : 0 < w.left := Nat.pos_of_ne_zero fun h0 => hnot ⟨hphase, h0⟩
      have hsend := hidle Worker.send (by simp [Worker.send, hphase, hleft])
      exact hsend (Option.map_eq_none_iff.mp (h (.send i)))
    | waiting =>
      have hsettle := hidle Worker.settle (by simp [Worker.settle, hphase])
      exact hsettle (Option.map_eq_none_iff.mp (h (.handle i)))
    | settled =>
      have hensure := hidle Worker.ensure (by simp [Worker.ensure, hphase])
      exact hensure (Option.map_eq_none_iff.mp (h (.ensure i)))

end Runs

/-! ## The numbers -/

theorem toInt_div_nonpos {a b : Int32} (ha : a.toInt < 0) (hb : 0 < b.toInt) :
    (a / b).toInt ≤ 0 := by
  have hneg : 0 ≤ -a.toInt := by omega
  have hle : -a.toInt / b.toInt ≤ -a.toInt := Int.ediv_le_self _ hneg
  have hnn : 0 ≤ -a.toInt / b.toInt := Int.ediv_nonneg hneg hb.le
  have hge := a.le_toInt
  have htdiv : a.toInt.tdiv b.toInt = -(-a.toInt / b.toInt) := by
    rw [← Int.tdiv_eq_ediv_of_nonneg hneg, Int.neg_tdiv, neg_neg]
  rw [Int32.toInt_div, htdiv, bmod_eq_self (by omega) (by omega)]
  omega

variable {concurrency totalRequests : Int32}

theorem times_mul (hc : 0 < concurrency.toInt) (ht : 0 ≤ totalRequests.toInt) :
    ((times concurrency * times (totalRequests / concurrency) : ℕ) : ℤ)
      = concurrency.toInt * (totalRequests.toInt / concurrency.toInt) := by
  rw [times, times, toInt_div ht hc, Nat.cast_mul, Int.toNat_of_nonneg hc.le,
    Int.toNat_of_nonneg (Int.ediv_nonneg ht hc.le)]

/-- No counter overflows. -/
theorem times_mul_lt : times concurrency * times (totalRequests / concurrency) < 2 ^ 31 := by
  by_cases hc : 0 < concurrency.toInt
  · by_cases ht : 0 ≤ totalRequests.toInt
    · have hmul := times_mul hc ht
      have hle := Int.mul_ediv_self_le (x := totalRequests.toInt) hc.ne'
      have hlt := totalRequests.toInt_lt
      omega
    · have hzero : times (totalRequests / concurrency) = 0 :=
        Int.toNat_of_nonpos (toInt_div_nonpos (not_le.mp ht) hc)
      rw [hzero, Nat.mul_zero]
      decide
  · have hzero : times concurrency = 0 := Int.toNat_of_nonpos (not_lt.mp hc)
    rw [hzero, Nat.zero_mul]
    decide

theorem times_mul_eq_iff (hc : 0 < concurrency.toInt) (ht : 0 ≤ totalRequests.toInt) :
    ((times concurrency * times (totalRequests / concurrency) : ℕ) : ℤ) = totalRequests.toInt
      ↔ concurrency.toInt ∣ totalRequests.toInt := by
  rw [times_mul hc ht]
  exact ⟨fun h => ⟨_, h.symm⟩, Int.mul_ediv_cancel'⟩

theorem toInt_ofNat64 {n : ℕ} (h : n < 2 ^ 31) : (Int64.ofNat n).toInt = n :=
  Int64.toInt_ofNat_of_lt (h.trans (by decide))

/-! ## The report -/

section Report
variable {Status : Type} [DecidableEq Status]

theorem respondedWith_le (status : Status) (es : List (Label Status)) :
    respondedWith status es ≤ responded es := by
  refine List.countP_mono_left fun e _ he => ?_
  cases e with
  | onSuccess i status' => rfl
  | send i => cases he
  | handle i => cases he
  | ensure i => cases he
  | print => cases he

/-- However the loops interleave: no more than `concurrency` requests are under way, every run comes
to its end, with the report, and the report counts each request once, as an error or under the
status of its response. These are `totalRequests` only when `concurrency` divides it. -/
theorem stress_accounts (concurrency totalRequests : Int32)
    (es : List (Label Status)) (s : State Status)
    (h : run step (initial concurrency totalRequests) es = some s) :
    (completed es ≤ responded es + failed es ∧ responded es + failed es ≤ sends es ∧
        sends es ≤ completed es + times concurrency) ∧
      es.length ≤ 3 * (times concurrency * times (totalRequests / concurrency)) + 1 ∧
      (Quiescent step s → ∃ r, s.report = some r) ∧
      ∀ r, s.report = some r →
        (r.completedRequests.toInt
            = ((times concurrency * times (totalRequests / concurrency) : ℕ) : ℤ) ∧
          r.completedRequests.toInt = responded es + r.errors.toInt ∧
          r.errors.toInt = failed es ∧
          ∀ status, (r.responses status).toInt = respondedWith status es) ∧
        (0 < concurrency.toInt → 0 ≤ totalRequests.toInt →
          (r.completedRequests = totalRequests ↔ concurrency.toInt ∣ totalRequests.toInt)) := by
  have hacc : Accounts _ _ es s := run_induction (accounts_initial concurrency totalRequests)
    (fun es s e t _ hs ht => hs.step ht) es s h
  obtain ⟨hlength, hleft, hwaiting, hsettled⟩ := hacc.balance
  have hlt : times concurrency * times (totalRequests / concurrency) < 2 ^ 31 := times_mul_lt
  refine ⟨⟨by omega, by omega, ?_⟩, ?_, fun hq => report_of_quiescent hq, fun r hr => ?_⟩
  · have := total_le s.workers
    omega
  · have hle := run_length_le work (fun s e t _ ht => work_step ht) es s h
    have hinit : work (initial concurrency totalRequests : State Status)
        = 3 * (times concurrency * times (totalRequests / concurrency)) + 1 := by
      simp [work, initial, total, Worker.work, Worker.waits, Worker.settles]
      ring
    omega
  · obtain ⟨hended, rfl⟩ := hacc.report r hr
    obtain ⟨hcompleted, hanswered, hsent⟩ := hacc.balance.ended hended
    have hcompletedInt : s.completedRequests.toInt = completed es := by
      rw [hacc.completedRequests, toInt_ofNat (by omega)]
    have herrors : s.errors.toInt = failed es := by
      rw [hacc.errors, toInt_ofNat (by omega)]
    refine ⟨⟨?_, ?_, herrors, fun status => ?_⟩, fun hc ht => ?_⟩
    · rw [hcompletedInt, hcompleted]
    · rw [hcompletedInt, herrors]
      omega
    · have := respondedWith_le status es
      change (s.responses status).toInt = _
      rw [hacc.responses, toInt_ofNat64 (by omega)]
    · rw [← times_mul_eq_iff hc ht, ← hcompleted, ← hcompletedInt]
      exact Int32.toInt_inj.symm

/-- Five requests over two loops: the fifth is never sent. -/
theorem stress_accounts_two_loops :
    ∃ (s : State ℕ) (r : Report ℕ), s.report = some r ∧ r.completedRequests.toInt = (4 : ℕ) := by
  have hrun : (run step (initial 2 5 : State ℕ) [.send 1, .send 0, .onSuccess 0 200, .ensure 0,
      .send 0, .handle 1, .onSuccess 0 404, .ensure 1, .ensure 0, .send 1, .onSuccess 1 200,
      .ensure 1, .print]).any fun s => s.report.isSome := by
    decide
  obtain ⟨s, hs, hreport⟩ := (Option.any_eq_true _ _).mp hrun
  obtain ⟨r, hr⟩ := Option.isSome_iff_exists.mp hreport
  exact ⟨s, r, hr, ((stress_accounts 2 5 _ s hs).2.2.2 r hr).1.1⟩

end Report

end SbtExample.Finagle.Stress
