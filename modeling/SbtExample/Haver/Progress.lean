import SbtExample.Foundations.Fairness
import SbtExample.Haver.Waiting

/-! # The client that waits comes to an end

The steps of the server and of the listeners are bounded. While a listener is not done one of them
can be taken, and the main thread may go round its loop without getting nearer to the end; once all
of them are done it leaves the loop in the next full pass.
-/
set_option autoImplicit false
set_option maxHeartbeats 250000

namespace SbtExample.Haver
open Thrift Transition

namespace Waiting
namespace State
variable {numCalls : ℕ} {s t : State}

/-! ## What is left to do -/

instance (calls : List Pending) : Decidable (AllDone calls) :=
  inferInstanceAs (Decidable (∀ c ∈ calls, c.response.b = true))

def Over (s : State) : Prop := s.main = .ended ∨ s.main = .nullPointerException

/-- The steps that are left to the server and the listeners. A call is sent with five of them. -/
def work (numCalls : ℕ) (s : State) : ℕ :=
  (s.calls.map Pending.work).sum + 6 * (numCalls - s.calls.length)

/-- The steps that are left to the main thread when it need not wait any more. A pass of the `for`
loop that has seen a listener that was not done needs another one. -/
def patience (numCalls : ℕ) (s : State) : ℕ :=
  match s.main with
  | .sending => 3 * numCalls + 7
  | .polling i count =>
    if AllDone s.calls then numCalls - i + if count = i then numCalls + 3 else 2 * numCalls + 6
    else 0
  | .sleeping => if AllDone s.calls then 2 * numCalls + 5 else 0
  | .reporting i => numCalls - i + 1
  | .ended => 0
  | .nullPointerException => 0

def rank (numCalls : ℕ) (s : State) : ℕ ×ₗ ℕ := toLex (s.work numCalls, s.patience numCalls)

/-- A job starts or finishes, or a listener makes an assignment. -/
def Works : Label → Prop
  | .start _ => True
  | .finish _ _ => True
  | .listen _ => True
  | _ => False

/-- While a listener is not done the others have to work. -/
def helpful (s : State) (e : Label) : Prop :=
  if s.main = .sending ∨ AllDone s.calls then e = .main else Works e

theorem work_lt_of_ne (h : s.Inv numCalls) {e : Label} (he : e ≠ .main)
    (ht : s.step numCalls e = some t) : t.work numCalls < s.work numCalls ∧ t.main = s.main := by
  obtain ⟨i, c, c', hc, hm, -, rfl⟩ := moves_of_step h.sound he ht
  have := Slots.sum_map_set_lt Pending.work hc hm.work
  refine ⟨?_, rfl⟩
  simp only [work, List.length_set]
  omega

/-- A listener that is not done, or its job, can be moved. -/
theorem exists_works (h : s.Inv numCalls) (hall : ¬ AllDone s.calls) :
    ∃ e, Works e ∧ s.step numCalls e ≠ none := by
  obtain ⟨c, hc, hb⟩ : ∃ c ∈ s.calls, c.response.b ≠ true := by
    by_contra hno
    exact hall fun c hc => by_contra fun hb => hno ⟨c, hc, hb⟩
  obtain ⟨i, hi⟩ := List.mem_iff_getElem?.mp hc
  have hfinish : ∀ (j : ℕ) (d : Pending), s.calls[j]? = some d → d.job = .running →
      s.step numCalls (.finish j 0) ≠ none := by
    intro j d hj hjob
    simp [step, update, Slots.update, hj, Pending.finish, hjob]
  cases hf : c.future with
  | some f =>
    refine ⟨.listen i, trivial, ?_⟩
    cases f with
    | error cause =>
      simp [step, update, Slots.update, hi, Pending.listen, hf, BlockingCallResponse.run, hb]
    | ok v =>
      by_cases ha : c.response.answer = none <;>
        simp [step, update, Slots.update, hi, Pending.listen, hf, BlockingCallResponse.run, hb, ha]
  | none =>
    cases hjob : c.job with
    | finished => exact absurd hf ((h.sound c hc).resolved hjob)
    | running => exact ⟨.finish i 0, trivial, hfinish i c hi hjob⟩
    | queued =>
      by_cases hrun : s.running < threads
      · exact ⟨.start i, trivial, by
          simp [step, update, Slots.update, hi, hrun, Pending.start, hjob]⟩
      · have hpos : 0 < s.running := lt_of_lt_of_le (by decide) (Nat.le_of_not_lt hrun)
        obtain ⟨d, hd, hdjob⟩ := List.countP_pos_iff.mp hpos
        obtain ⟨j, hj⟩ := List.mem_iff_getElem?.mp hd
        exact ⟨.finish j 0, trivial, hfinish j d hj (of_decide_eq_true hdjob)⟩

theorem next_ne_none (h : ¬ s.Over) : s.next numCalls ≠ none := by
  rw [next]
  cases hmain : s.main with
  | sending =>
    simp only
    split_ifs <;> exact Option.some_ne_none _
  | polling i count => cases hc : s.calls[i]? <;> simp [hc]
  | sleeping => exact Option.some_ne_none _
  | reporting i =>
    cases hc : s.calls[i]? with
    | none => simp [hc]
    | some c => cases hans : c.response.answer <;> simp [hc, hans]
  | ended => exact absurd (.inl hmain) h
  | nullPointerException => exact absurd (.inr hmain) h

theorem rank_lt_of_patience (hcalls : t.calls = s.calls)
    (h : t.patience numCalls < s.patience numCalls) : rank numCalls t < rank numCalls s := by
  rw [rank, rank, work, work, hcalls]
  exact Prod.Lex.toLex_lt_toLex.mpr (.inr ⟨rfl, h⟩)

/-- A step of the main thread: it sends a call, it gets on, or it goes round the loop once more
because a listener is not done. -/
theorem next_rank (h : s.Inv numCalls) (ht : s.next numCalls = some t) (hover : ¬ t.Over) :
    rank numCalls t < rank numCalls s ∨
      rank numCalls t = rank numCalls s ∧ t.calls = s.calls ∧ s.main ≠ .sending ∧
        t.main ≠ .sending ∧ ¬ AllDone s.calls := by
  have htrace := h.trace
  unfold Trace at htrace
  rw [next] at ht
  cases hmain : s.main with
  | sending =>
    simp only [hmain] at ht
    split_ifs at ht with hlt
    · cases ht
      refine .inl (Prod.Lex.toLex_lt_toLex.mpr (.inl ?_))
      have hnew : ({} : Pending).work = 5 := rfl
      simp only [work, List.map_append, List.map_singleton, List.sum_append, List.sum_singleton,
        List.length_append, List.length_singleton, hnew]
      omega
    · cases ht
      refine .inl (rank_lt_of_patience rfl ?_)
      simp only [patience, hmain]
      split_ifs <;> omega
  | polling i count =>
    simp only [hmain] at ht htrace
    obtain ⟨hlen, -, hi, hcount⟩ := htrace
    cases hc : s.calls[i]? with
    | some c =>
      simp only [hc] at ht
      cases ht
      by_cases hall : AllDone s.calls
      · have hdone : c.response.isDone = true := hall c (List.mem_of_getElem? hc)
        have hlt : i < numCalls := hlen ▸ (List.getElem?_eq_some_iff.mp hc).1
        refine .inl (rank_lt_of_patience rfl ?_)
        simp only [patience, hmain, if_pos hall, if_pos hdone, Nat.add_right_cancel_iff]
        split_ifs <;> omega
      · refine .inr ⟨?_, rfl, Main.noConfusion, Main.noConfusion, hall⟩
        simp only [rank, work, patience, hmain, if_neg hall]
    | none =>
      simp only [hc] at ht
      have hi' : i = numCalls := le_antisymm hi (hlen ▸ List.getElem?_eq_none_iff.mp hc)
      by_cases hn : count = numCalls
      · rw [if_pos hn] at ht
        cases ht
        have hall : AllDone s.calls := by
          rw [List.take_of_length_le (hlen.trans hi'.symm).le] at hcount
          exact allDone_of_done (hlen.trans_le (hn ▸ hcount))
        refine .inl (rank_lt_of_patience rfl ?_)
        simp only [patience, hmain, if_pos hall, hi', hn, if_true]
        omega
      · rw [if_neg hn] at ht
        cases ht
        by_cases hall : AllDone s.calls
        · refine .inl (rank_lt_of_patience rfl ?_)
          simp only [patience, hmain, if_pos hall, hi', if_neg hn]
          omega
        · refine .inr ⟨?_, rfl, Main.noConfusion, Main.noConfusion, hall⟩
          simp only [rank, work, patience, hmain, if_neg hall]
  | sleeping =>
    simp only [hmain] at ht
    cases ht
    by_cases hall : AllDone s.calls
    · refine .inl (rank_lt_of_patience rfl ?_)
      simp only [patience, hmain, if_pos hall]
      split_ifs <;> omega
    · refine .inr ⟨?_, rfl, Main.noConfusion, Main.noConfusion, hall⟩
      simp only [rank, work, patience, hmain, if_neg hall]
  | reporting i =>
    simp only [hmain] at ht
    cases hc : s.calls[i]? with
    | some c =>
      cases hanswer : c.response.answer with
      | some v =>
        simp only [hc, hanswer] at ht
        cases ht
        have hlt : i < numCalls := by
          simp only [hmain] at htrace
          exact htrace.1 ▸ (List.getElem?_eq_some_iff.mp hc).1
        refine .inl (rank_lt_of_patience rfl ?_)
        simp only [patience, hmain]
        omega
      | none =>
        simp only [hc, hanswer] at ht
        cases ht
        exact absurd (.inr rfl) hover
    | none =>
      simp only [hc] at ht
      cases ht
      exact absurd (.inl rfl) hover
  | ended =>
    simp only [hmain] at ht
    cases ht
  | nullPointerException =>
    simp only [hmain] at ht
    cases ht

theorem helps (numCalls : ℕ) :
    HelpsBy (step numCalls) (fun s => s.Inv numCalls ∧ ¬ s.Over) Over (rank numCalls) helpful where
  enabled s hs := by
    by_cases hmain : s.main = .sending ∨ AllDone s.calls
    · refine ⟨.main, ?_, next_ne_none hs.2⟩
      rw [helpful, if_pos hmain]
    · obtain ⟨e, he, henabled⟩ := exists_works hs.1 fun hall => hmain (.inr hall)
      refine ⟨e, ?_, henabled⟩
      rwa [helpful, if_neg hmain]
  next s e t hs ht := by
    obtain ⟨hinv, hover⟩ := hs
    by_cases hgoal : t.Over
    · exact .inl hgoal
    refine .inr ⟨⟨hinv.step ht, hgoal⟩, ?_⟩
    by_cases he : e = .main
    · subst he
      refine (next_rank hinv ht hgoal).imp_right fun ⟨hrank, hcalls, hs, ht, hall⟩ => ?_
      have hnot : ¬ (s.main = .sending ∨ AllDone s.calls) := fun hor => hor.elim hs hall
      have hnot' : ¬ (t.main = .sending ∨ AllDone t.calls) :=
        fun hor => hor.elim ht fun hall' => hall (hcalls ▸ hall')
      refine ⟨hrank, funext fun e => ?_, fun hworks => ?_⟩
      · simp only [helpful, if_neg hnot, if_neg hnot']
      · simp only [helpful, if_neg hnot] at hworks
        exact hworks
    · exact .inl (Prod.Lex.toLex_lt_toLex.mpr (.inl (work_lt_of_ne hinv he ht).1))

/-- The last loop has been reached. -/
def Polled (s : State) : Prop :=
  (∃ i, s.main = .reporting i) ∨ s.Over

theorem Inv.polled (h : s.Inv numCalls) (hs : s.Polled) :
    s.calls.length = numCalls ∧ AllDone s.calls := by
  have htrace := h.trace
  unfold Trace at htrace
  rcases hs with ⟨i, hmain⟩ | hmain | hmain <;> rw [hmain] at htrace <;>
    exact ⟨htrace.1, htrace.2.1⟩

/-! ## What has been printed -/

theorem futures_of_answers {l : List Pending} (sound : ∀ c ∈ l, c.Sound) {p : List Int32}
    (h : p.map some = answers l) :
    l.map Pending.future = p.map fun answer => some (.ok answer) := by
  induction l generalizing p with
  | nil =>
    cases List.map_eq_nil_iff.mp h
    rfl
  | cons c l ih =>
    cases p with
    | nil => cases h
    | cons v p =>
      obtain ⟨hv, hp⟩ := List.cons.inj h
      rw [List.map_cons, List.map_cons, (sound c List.mem_cons_self).answered v hv.symm,
        ih (fun d hd => sound d (List.mem_cons_of_mem c hd)) hp]

/-- The first call without an answer has failed. -/
theorem futures_of_missing {l : List Pending} (sound : ∀ c ∈ l, c.Sound) (hall : AllDone l)
    {i : ℕ} (hi : (answers l)[i]? = some none) {p : List Int32}
    (h : p.map some = (answers l).take i) :
    ∃ cause rest, l.map Pending.future
      = p.map (fun answer => some (.ok answer)) ++ some (.error cause) :: rest := by
  rw [answers, List.getElem?_map, Option.map_eq_some_iff] at hi
  obtain ⟨c, hc, hnone⟩ := hi
  have hmem := List.mem_of_getElem? hc
  obtain ⟨f, hf, hanswer⟩ := (sound c hmem).done (hall c hmem)
  rw [hnone] at hanswer
  have hfirst : (l.take i).map Pending.future = p.map fun answer => some (.ok answer) := by
    refine futures_of_answers (fun d hd => sound d (List.mem_of_mem_take hd)) ?_
    rw [h, answers, answers, List.map_take]
  cases f with
  | ok v => cases hanswer
  | error cause =>
    obtain ⟨hlt, rfl⟩ := List.getElem?_eq_some_iff.mp hc
    refine ⟨cause, (l.drop (i + 1)).map Pending.future, ?_⟩
    rw [← hfirst, ← hf, ← List.map_cons, ← List.map_append, ← List.drop_eq_getElem_cons hlt,
      List.take_append_drop]

end State

/-! ## The client -/

open State in
/-- The client reports only when every call has an answer or has failed; it prints the answers in
the order of the calls, up to the first call that failed, where it ends with an exception. No more
than four calls are worked on at a time. If the main thread goes on, and the threads and listeners
do, then the client ends. -/
theorem client_waits_for_all (numCalls : ℕ) (s : State)
    (h : Reachable (step numCalls) {} s) :
    s.running ≤ threads ∧
      (s.Polled ∨ s.printed ≠ [] →
        s.calls.length = numCalls ∧ ∀ c ∈ s.calls, ∃ f, c.future = some f) ∧
      (s.main = .ended →
        s.calls.map Pending.future = s.printed.map fun answer => some (.ok answer)) ∧
      (s.main = .nullPointerException → ∃ cause rest, s.calls.map Pending.future
        = s.printed.map (fun answer => some (.ok answer)) ++ some (.error cause) :: rest) ∧
      ∀ x : Execution (step numCalls), x.WeaklyFair .main → x.FairTo Works →
        ∀ n, x.state n = s → ∃ m ≥ n, (x.state m).Over := by
  have hinv := inv_of_reachable h
  have htrace := hinv.trace
  refine ⟨hinv.threads, fun hs => ?_, fun hmain => ?_, fun hmain => ?_,
    fun x hmain hworks n hn => ?_⟩
  · have hpolled : s.Polled := hs.elim id fun hprinted => ?_
    · obtain ⟨hlen, hall⟩ := hinv.polled hpolled
      refine ⟨hlen, fun c hc => ?_⟩
      obtain ⟨f, hf, -⟩ := (hinv.sound c hc).done (hall c hc)
      exact ⟨f, hf⟩
    · unfold Trace at htrace
      cases hmain : s.main with
      | sending =>
        rw [hmain] at htrace
        exact absurd htrace.2 hprinted
      | polling i count =>
        rw [hmain] at htrace
        exact absurd htrace.2.1 hprinted
      | sleeping =>
        rw [hmain] at htrace
        exact absurd htrace.2 hprinted
      | reporting i => exact .inl ⟨i, hmain⟩
      | ended => exact .inr (.inl hmain)
      | nullPointerException => exact .inr (.inr hmain)
  · unfold Trace at htrace
    rw [hmain] at htrace
    exact futures_of_answers hinv.sound htrace.2.2
  · unfold Trace at htrace
    rw [hmain] at htrace
    obtain ⟨-, hall, i, hi, hprinted⟩ := htrace
    exact futures_of_missing hinv.sound hall hi hprinted
  · by_cases hover : s.Over
    · exact ⟨n, le_rfl, hn ▸ hover⟩
    · refine (helps numCalls).reaches x (fun t _ => ?_) (hn ▸ ⟨hinv, hover⟩)
      by_cases ht : t.main = .sending ∨ AllDone t.calls
      · rw [show helpful t = (· = .main) from funext fun e => if_pos ht]
        exact Execution.fairTo_eq hmain
      · rw [show helpful t = Works from funext fun e => if_neg ht]
        exact hworks

/-- Two calls, of which the second fails while the first is still being worked on. -/
def failedRun : List Label :=
  [.main, .start 0, .main, .fail 1 nullPointer, .main, .finish 0 7, .listen 0, .main, .listen 0,
    .listen 1, .main, .main, .main, .main, .main, .main, .main, .main, .start 1, .finish 1 8]

def failedState : State :=
  ⟨.nullPointerException,
    [⟨.finished, some (.ok 7), true, some 7⟩, ⟨.finished, some (.error nullPointer), true, none⟩],
    [7]⟩

theorem run_failed : run (State.step 2) {} failedRun = some failedState := rfl

theorem failedState_rests (e : Label) (he : State.Works e) : failedState.step 2 e = none := by
  cases e with
  | main => cases he
  | fail i cause => cases he
  | start i => rcases i with _ | _ | i <;> rfl
  | finish i value => rcases i with _ | _ | i <;> rfl
  | listen i => rcases i with _ | _ | i <;> rfl

theorem client_waits_for_all_failed :
    (∃ s : State, s.main = .nullPointerException ∧ s.printed = [7] ∧
      ∃ cause rest, s.calls.map Pending.future
        = s.printed.map (fun answer => some (.ok answer)) ++ some (.error cause) :: rest) ∧
    ∃ m ≥ 0, State.Over ((Execution.ofRun run_failed).state m) := by
  have hended := (client_waits_for_all 2 failedState ⟨failedRun, run_failed⟩).2.2.2.1 rfl
  have hlive := (client_waits_for_all 2 {} (.refl _ _)).2.2.2.2 (Execution.ofRun run_failed)
    (Execution.weaklyFair_of_fairTo (Execution.fairTo_ofRun run_failed fun e he => by
      rw [he]
      rfl))
    (Execution.fairTo_ofRun run_failed failedState_rests)
  exact ⟨⟨failedState, rfl, rfl, hended⟩, hlive 0 rfl⟩

end Waiting
end SbtExample.Haver
