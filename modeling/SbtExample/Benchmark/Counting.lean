import SbtExample.Benchmark.Program

/-! # One token and one count

The history of a run is read through its `counts`. One control message at a time is on its way, and
it says which counts are owed: how many payloads have been sent before and since `Start`, and what
the receiver has got of them.
-/
set_option autoImplicit false
set_option maxHeartbeats 250000

namespace SbtExample.Benchmark
open MachineInt

/-! ## Counting in a history -/

def sentSinceStart (h : List Event) : ℕ :=
  (h.takeWhile fun e => decide (e ≠ .handled (.echo .start))).count (.sent .payload)

def sentBeforeStart (h : List Event) : ℕ :=
  (h.dropWhile fun e => decide (e ≠ .handled (.echo .start))).count (.sent .payload)

@[ext] structure Counts where
  warmups : ℕ
  starts : ℕ
  dones : ℕ
  shutdowns : ℕ
  before : ℕ
  since : ℕ
  received : ℕ

def Counts.zero : Counts := ⟨0, 0, 0, 0, 0, 0, 0⟩

def counts (h : List Event) : Counts where
  warmups := h.count (.handled .warmup)
  starts := h.count (.handled (.echo .start))
  dones := h.count (.handled (.echo .done))
  shutdowns := h.count (.sent .shutdown)
  before := sentBeforeStart h
  since := sentSinceStart h
  received := h.count (.received .payload)

def Counts.record (c : Counts) : Event → Counts
  | .handled .warmup => { c with warmups := c.warmups + 1 }
  | .handled (.echo .start) =>
    { c with starts := c.starts + 1, before := c.before + c.since, since := 0 }
  | .handled (.echo .done) => { c with dones := c.dones + 1 }
  | .sent .shutdown => { c with shutdowns := c.shutdowns + 1 }
  | .sent .payload => { c with since := c.since + 1 }
  | .received .payload => { c with received := c.received + 1 }
  | _ => c

theorem sent_before_add_since (h : List Event) :
    sentBeforeStart h + sentSinceStart h = h.count (.sent .payload) := by
  unfold sentBeforeStart sentSinceStart
  rw [Nat.add_comm, ← List.count_append, List.takeWhile_append_dropWhile]

theorem sentSinceStart_cons {e : Event} (h : List Event) (he : e ≠ .handled (.echo .start)) :
    sentSinceStart (e :: h) = sentSinceStart h + if e = .sent .payload then 1 else 0 := by
  unfold sentSinceStart
  rw [List.takeWhile_cons_of_pos (by simpa using he), List.count_cons]
  simp

theorem sentBeforeStart_cons {e : Event} (h : List Event) (he : e ≠ .handled (.echo .start)) :
    sentBeforeStart (e :: h) = sentBeforeStart h := by
  unfold sentBeforeStart
  rw [List.dropWhile_cons_of_pos (by simpa using he)]

theorem counts_start (h : List Event) :
    counts (.handled (.echo .start) :: h) = (counts h).record (.handled (.echo .start)) := by
  have hbefore : sentBeforeStart (.handled (.echo .start) :: h) =
      sentBeforeStart h + sentSinceStart h := by
    rw [sent_before_add_since, sentBeforeStart, List.dropWhile_cons_of_neg (by simp)]
    simp
  have hsince : sentSinceStart (.handled (.echo .start) :: h) = 0 := by
    rw [sentSinceStart, List.takeWhile_cons_of_neg (by simp)]
    rfl
  unfold counts
  rw [hbefore, hsince]
  simp [Counts.record]

theorem counts_cons (e : Event) (h : List Event) : counts (e :: h) = (counts h).record e := by
  by_cases he : e = .handled (.echo .start)
  · rw [he, counts_start]
  · unfold counts
    rw [sentSinceStart_cons h he, sentBeforeStart_cons h he]
    cases e with
    | handled m =>
      cases m with
      | echo m => cases m <;> simp_all [Counts.record]
      | _ => simp [Counts.record]
    | sent m => cases m <;> simp [Counts.record]
    | received m => cases m <;> simp [Counts.record]

theorem counts_payloads (k : ℕ) (h : List Event) :
    counts (List.replicate k (.sent .payload) ++ h) =
      { counts h with since := (counts h).since + k } := by
  induction k with
  | zero => rfl
  | succ k ih =>
    rw [List.replicate_succ, List.cons_append, counts_cons, ih]
    rfl

/-! ## What each handler of the sender does -/

section Handlers
variable {s : System}

theorem senderHandles_found (hr : s.sender.receive = .identifying) (now : ℤ) :
    s.senderHandles now (.actorIdentity true) =
      { s with
        sender := { s.sender with receive := .active, receiveTimeout := false }
        toSelf := s.toSelf ++ [.warmup]
        history := .handled (.actorIdentity true) :: s.history } := by
  simp [System.senderHandles, Sender.handle, hr, Sender.identifying, System.perform]

theorem senderHandles_warmup (hr : s.sender.receive = .active) (now : ℤ) :
    s.senderHandles now .warmup =
      (s.sender.sendBatch s.sender.burstSize ++ [Effect.tell (.echo .start)]).foldl System.perform
        { s with history := .handled .warmup :: s.history } := by
  unfold System.senderHandles Sender.handle
  rw [hr]
  rfl

/-- What a handler sends after its batch. -/
def nextEcho (after : Int32) (t0 t1 : ℤ) (n : Int32) : Echo :=
  if after = 0 then .done else .continue after t0 t1 n

theorem nextEcho_cases (after : Int32) (t0 t1 : ℤ) (n : Int32) :
    after = 0 ∧ nextEcho after t0 t1 n = .done ∨
      after ≠ 0 ∧ nextEcho after t0 t1 n = .continue after t0 t1 n := by
  by_cases h : after = 0
  · exact .inl ⟨h, if_pos h⟩
  · exact .inr ⟨h, if_neg h⟩

theorem senderHandles_start (hr : s.sender.receive = .active) (now : ℤ) :
    s.senderHandles now (.echo .start) =
      (s.sender.sendBatch s.sender.totalMessages ++ [Effect.tell (.echo
        (nextEcho (s.sender.afterBatch s.sender.totalMessages) now now
          s.sender.burstSize))]).foldl System.perform
        { s with
          sender := { s.sender with startTime := now }
          printed := s.printed ++ [Line.starting]
          history := .handled (.echo .start) :: s.history } := by
  unfold System.senderHandles Sender.handle
  rw [hr]
  rfl

/-- The line about the throughput changes nothing but the output, and the window begins anew
with it. -/
theorem senderHandles_continue (hr : s.sender.receive = .active) (now : ℤ) (remaining : Int32)
    (t0 t1 : ℤ) (n : Int32) :
    s.senderHandles now (.echo (.continue remaining t0 t1 n)) =
      (s.sender.sendBatch remaining ++ [Effect.tell (.echo
        (nextEcho (s.sender.afterBatch remaining)
          (if 500 ≤ toMillis (now - t0) then now else t0) now
          (if 500 ≤ toMillis (now - t0) then s.sender.burstSize
          else n + s.sender.burstSize)))]).foldl System.perform
        { s with
          sender := { s.sender with
            maxRoundTripMillis := max s.sender.maxRoundTripMillis (toMillis (now - t1)) }
          printed := s.printed ++ if 500 ≤ toMillis (now - t0) then
            [Line.progress (toMillis (now - t0)) n (toMillis (now - t1)) remaining] else []
          history := .handled (.echo (.continue remaining t0 t1 n)) :: s.history } := by
  unfold System.senderHandles Sender.handle
  simp only [hr, Sender.active, Sender.onContinue, nextEcho]
  by_cases hduration : 500 ≤ toMillis (now - t0)
  · simp only [if_pos hduration]
    rfl
  · simp only [if_neg hduration, List.append_nil]
    rfl

theorem senderHandles_done (hr : s.sender.receive = .active) (now : ℤ) :
    s.senderHandles now (.echo .done) =
      { s with
        toReceiver := s.toReceiver ++ [.shutdown]
        printed := s.printed ++
          [Line.took (toMillis (now - s.sender.startTime)) s.sender.maxRoundTripMillis]
        history := .sent .shutdown :: .handled (.echo .done) :: s.history } := by
  simp [System.senderHandles, Sender.handle, hr, Sender.active, System.perform]

theorem senderHandles_terminated (hr : s.sender.receive = .active) (now : ℤ) :
    s.senderHandles now .terminated =
      { s with
        senderUp := false
        printed := s.printed ++ [Line.receiverTerminated]
        history := .handled .terminated :: s.history } := by
  simp [System.senderHandles, Sender.handle, hr, Sender.active, System.perform]

/-- Retries and late answers: nothing is sent, and only the end of the receiver ends the sender. -/
theorem senderHandles_environment {m : Message}
    (hm : m = .receiveTimeout ∨ m = .terminated ∨ m = .actorIdentity false ∨
      m = .actorIdentity true ∧ s.sender.receive = .active) (now : ℤ) :
    ∃ up lines, s.senderHandles now m =
        { s with
          senderUp := up
          printed := s.printed ++ lines
          history := .handled m :: s.history } ∧
      (m ≠ .terminated → up = s.senderUp) ∧
      ∀ line ∈ lines, line = .notAvailable ∨ line = .receiverTerminated := by
  cases hr : s.sender.receive with
  | identifying =>
    rcases hm with rfl | rfl | rfl | ⟨-, hactive⟩
    · refine ⟨s.senderUp, [], ?_, by simp, by simp⟩
      simp [System.senderHandles, Sender.handle, hr, Sender.identifying, System.perform]
    · refine ⟨s.senderUp, [], ?_, by simp, by simp⟩
      simp [System.senderHandles, Sender.handle, hr, Sender.identifying]
    · refine ⟨s.senderUp, [.notAvailable], ?_, by simp, by simp⟩
      simp [System.senderHandles, Sender.handle, hr, Sender.identifying, System.perform]
    · cases hactive.symm.trans hr
  | active =>
    rcases hm with rfl | rfl | rfl | ⟨rfl, -⟩
    · refine ⟨s.senderUp, [], ?_, by simp, by simp⟩
      simp [System.senderHandles, Sender.handle, hr, Sender.active]
    · exact ⟨false, [.receiverTerminated], senderHandles_terminated hr now, by simp, by simp⟩
    · refine ⟨s.senderUp, [], ?_, by simp, by simp⟩
      simp [System.senderHandles, Sender.handle, hr, Sender.active]
    · refine ⟨s.senderUp, [], ?_, by simp, by simp⟩
      simp [System.senderHandles, Sender.handle, hr, Sender.active]

/-! ## What the receiver does -/

theorem receiverHandles_sender (s : System) (m : Message) :
    (s.receiverHandles m).sender = s.sender := by
  cases m <;> rfl

theorem receiverHandles_toSelf (s : System) (m : Message) :
    (s.receiverHandles m).toSelf = s.toSelf := by
  cases m <;> rfl

theorem receiverHandles_toReceiver (s : System) (m : Message) :
    (s.receiverHandles m).toReceiver = s.toReceiver := by
  cases m <;> rfl

theorem receiverHandles_history (s : System) (m : Message) :
    (s.receiverHandles m).history = .received m :: s.history := by
  cases m <;> rfl

end Handlers

/-! ## What the invariant reads of a state -/

@[ext] structure View where
  receive : Behavior
  toSelf : List Message
  toReceiver : List Message
  toSender : List Echo
  counts : Counts

def System.view (s : System) : View :=
  ⟨s.sender.receive, s.toSelf, s.toReceiver, s.toSender, counts s.history⟩

/-- The counts when a control message is on its way, for `total` messages in bursts of `burst`. -/
def Owed (total burst : ℤ) (c : Counts) : Message → Prop
  | .echo .start => c.warmups = 1 ∧ c.starts = 0 ∧ c.dones = 0 ∧ c.shutdowns = 0 ∧
      c.before = 0 ∧ c.since = burst
  | .echo (.continue remaining _ _ _) => c.warmups = 1 ∧ c.starts = 1 ∧ c.dones = 0 ∧
      c.shutdowns = 0 ∧ c.before = burst ∧ c.since = total - remaining.toInt ∧
      0 < remaining.toInt
  | .echo .done => c.warmups = 1 ∧ c.starts = 1 ∧ c.dones = 0 ∧ c.shutdowns = 0 ∧
      c.before = burst ∧ c.since = total
  | .shutdown => c.warmups = 1 ∧ c.starts = 1 ∧ c.dones = 1 ∧ c.shutdowns = 1 ∧
      c.before = burst ∧ c.since = total
  | _ => False

/-- Where the token is: the control message that keeps the benchmark going. -/
inductive Phase (total burst : ℤ) : View → Prop
  | identifying : Phase total burst ⟨.identifying, [], [], [], .zero⟩
  | warming : Phase total burst ⟨.active, [.warmup], [], [], .zero⟩
  | outbound (k : ℕ) (m : Message) (c : Counts) (owed : Owed total burst c m)
      (behind : c.received + k = c.before + c.since) :
      Phase total burst ⟨.active, [], List.replicate k .payload ++ [m], [], c⟩
  | inbound (e : Echo) (c : Counts) (owed : Owed total burst c (.echo e))
      (received : c.received = c.before + c.since) : Phase total burst ⟨.active, [], [], [e], c⟩
  | closed (c : Counts) (owed : Owed total burst c .shutdown) :
      Phase total burst ⟨.active, [], [], [], c⟩

structure Inv (totalMessages burstSize : Int32) (s : System) : Prop where
  total : s.sender.totalMessages = totalMessages
  burst : s.sender.burstSize = burstSize
  phase : Phase totalMessages.toInt burstSize.toInt s.view

/-! ## What a handler does to the view -/

theorem perform_payloads (k : ℕ) (s : System) :
    (List.replicate k (Effect.tell .payload)).foldl System.perform s =
      { s with
        toReceiver := s.toReceiver ++ List.replicate k .payload
        history := List.replicate k (.sent .payload) ++ s.history } := by
  induction k generalizing s with
  | zero => simp
  | succ k ih =>
    rw [List.replicate_succ, List.foldl_cons, ih, List.replicate_succ, List.replicate_succ']
    simp [System.perform]

theorem foldl_batch (k : ℕ) (m : Message) (s : System) :
    (List.replicate k (Effect.tell .payload) ++ [Effect.tell m]).foldl System.perform s =
      { s with
        toReceiver := s.toReceiver ++ List.replicate k .payload ++ [m]
        history := .sent m :: (List.replicate k (.sent .payload) ++ s.history) } := by
  rw [List.foldl_append, perform_payloads]
  rfl

theorem view_batch (k : ℕ) (m : Message) (s : System) :
    ((List.replicate k (Effect.tell .payload) ++ [Effect.tell m]).foldl System.perform s).view =
      { s.view with
        toReceiver := s.toReceiver ++ List.replicate k .payload ++ [m]
        counts :=
          Counts.record { counts s.history with since := (counts s.history).since + k }
            (.sent m) } := by
  rw [foldl_batch]
  simp only [System.view, counts_cons, counts_payloads]

theorem sendBatch_eq (s : Sender) (remaining : Int32) :
    s.sendBatch remaining =
      List.replicate (min remaining.toInt s.burstSize.toInt).toNat (.tell .payload) := by
  unfold Sender.sendBatch
  rw [List.map_const', toRange_length, Sender.batchSize, toInt_min, Int32.toInt_one]
  congr 2
  omega

theorem afterBatch_toInt (s : Sender) (remaining : Int32) (hr : 0 ≤ remaining.toInt)
    (hb : 1 ≤ s.burstSize.toInt) :
    (s.afterBatch remaining).toInt = remaining.toInt - min remaining.toInt s.burstSize.toInt := by
  have hmin : (s.batchSize remaining).toInt = min remaining.toInt s.burstSize.toInt :=
    toInt_min remaining s.burstSize
  have hlt := remaining.toInt_lt
  rw [Sender.afterBatch, toInt_sub (by omega) (by omega), hmin]

end SbtExample.Benchmark
