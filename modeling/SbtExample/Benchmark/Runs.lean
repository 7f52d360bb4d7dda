import SbtExample.Benchmark.Counting

/-! # Runs of the benchmark

Every step moves the token to its next place, or leaves it where it is when a retry or a late answer
to `Identify` is handled.
-/
set_option autoImplicit false
set_option maxHeartbeats 250000

namespace SbtExample.Benchmark
open MachineInt

section Runs
variable {total burst : Int32} {s t : System}

theorem view_eq_iff {receive : Behavior} {toSelf toReceiver : List Message} {toSender : List Echo}
    {c : Counts} :
    s.view = ⟨receive, toSelf, toReceiver, toSender, c⟩ ↔ s.sender.receive = receive ∧
      s.toSelf = toSelf ∧ s.toReceiver = toReceiver ∧ s.toSender = toSender ∧
      counts s.history = c := by
  unfold System.view
  rw [View.mk.injEq]

/-! ## The token by the channel that it is in -/

theorem Inv.unidentified (hi : Inv total burst s) (hr : s.sender.receive = .identifying) :
    s.toSelf = [] ∧ s.toReceiver = [] ∧ s.toSender = [] ∧ counts s.history = .zero := by
  have hphase := hi.phase
  generalize hv : s.view = v at hphase
  obtain ⟨hactive, hself, hrecv, hsend, hcounts⟩ := view_eq_iff.mp hv
  cases hphase with
  | identifying => exact ⟨hself, hrecv, hsend, hcounts⟩
  | warming => cases hactive.symm.trans hr
  | outbound k m c owed behind => cases hactive.symm.trans hr
  | inbound e c owed received => cases hactive.symm.trans hr
  | closed c owed => cases hactive.symm.trans hr

theorem Inv.warming (hi : Inv total burst s) {m : Message} {rest : List Message}
    (h : s.toSelf = m :: rest) :
    (m = .warmup ∧ rest = []) ∧ s.sender.receive = .active ∧ s.toReceiver = [] ∧
      s.toSender = [] ∧ counts s.history = .zero := by
  have hphase := hi.phase
  generalize hv : s.view = v at hphase
  obtain ⟨hr, hself, hrecv, hsend, hcounts⟩ := view_eq_iff.mp hv
  cases hphase with
  | warming =>
    obtain ⟨rfl, rfl⟩ := List.cons.inj (hself.symm.trans h)
    exact ⟨⟨rfl, rfl⟩, hr, hrecv, hsend, hcounts⟩
  | identifying => cases hself.symm.trans h
  | outbound k m c owed behind => cases hself.symm.trans h
  | inbound e c owed received => cases hself.symm.trans h
  | closed c owed => cases hself.symm.trans h

theorem Inv.outbound (hi : Inv total burst s) {m : Message} {rest : List Message}
    (h : s.toReceiver = m :: rest) :
    ∃ k m', m :: rest = List.replicate k .payload ++ [m'] ∧
      Owed total.toInt burst.toInt (counts s.history) m' ∧
      (counts s.history).received + k = (counts s.history).before + (counts s.history).since ∧
      s.sender.receive = .active ∧ s.toSelf = [] ∧ s.toSender = [] := by
  have hphase := hi.phase
  generalize hv : s.view = v at hphase
  obtain ⟨hr, hself, hrecv, hsend, hcounts⟩ := view_eq_iff.mp hv
  cases hphase with
  | outbound k m' c owed behind =>
    rw [hcounts]
    exact ⟨k, m', h.symm.trans hrecv, owed, behind, hr, hself, hsend⟩
  | identifying => cases hrecv.symm.trans h
  | warming => cases hrecv.symm.trans h
  | inbound e c owed received => cases hrecv.symm.trans h
  | closed c owed => cases hrecv.symm.trans h

theorem Inv.inbound (hi : Inv total burst s) {e : Echo} {rest : List Echo}
    (h : s.toSender = e :: rest) :
    rest = [] ∧ Owed total.toInt burst.toInt (counts s.history) (.echo e) ∧
      (counts s.history).received = (counts s.history).before + (counts s.history).since ∧
      s.sender.receive = .active ∧ s.toSelf = [] ∧ s.toReceiver = [] := by
  have hphase := hi.phase
  generalize hv : s.view = v at hphase
  obtain ⟨hr, hself, hrecv, hsend, hcounts⟩ := view_eq_iff.mp hv
  cases hphase with
  | inbound e' c owed received =>
    obtain ⟨rfl, rfl⟩ := List.cons.inj (hsend.symm.trans h)
    rw [hcounts]
    exact ⟨rfl, owed, received, hr, hself, hrecv⟩
  | identifying => cases hsend.symm.trans h
  | warming => cases hsend.symm.trans h
  | outbound k m c owed behind => cases hsend.symm.trans h
  | closed c owed => cases hsend.symm.trans h

/-! ## Parameters -/

theorem handle_parameters (s : Sender) (now : ℤ) (m : Message) :
    (s.handle now m).1.totalMessages = s.totalMessages ∧
      (s.handle now m).1.burstSize = s.burstSize := by
  unfold Sender.handle
  cases s.receive with
  | identifying =>
    cases m with
    | actorIdentity found => cases found <;> exact ⟨rfl, rfl⟩
    | _ => exact ⟨rfl, rfl⟩
  | active =>
    cases m with
    | echo e => cases e <;> exact ⟨rfl, rfl⟩
    | _ => exact ⟨rfl, rfl⟩

theorem foldl_perform_sender (effects : List Effect) (s : System) :
    (effects.foldl System.perform s).sender = s.sender := by
  induction effects generalizing s with
  | nil => rfl
  | cons e effects ih =>
    rw [List.foldl_cons, ih]
    cases e <;> rfl

theorem Inv.handles (now : ℤ) (m : Message) (htotal : s.sender.totalMessages = total)
    (hburst : s.sender.burstSize = burst)
    (phase : Phase total.toInt burst.toInt (s.senderHandles now m).view) :
    Inv total burst (s.senderHandles now m) := by
  obtain ⟨htotal', hburst'⟩ := handle_parameters s.sender now m
  have hfold : (s.senderHandles now m).sender = (s.sender.handle now m).1 :=
    foldl_perform_sender _ _
  exact
    { total := by rw [hfold, htotal', htotal]
      burst := by rw [hfold, hburst', hburst]
      phase := phase }

/-! ## Retries and late answers -/

theorem view_handles_environment {m : Message}
    (hm : m = .receiveTimeout ∨ m = .terminated ∨ m = .actorIdentity false ∨
      m = .actorIdentity true ∧ s.sender.receive = .active) (now : ℤ) :
    (s.senderHandles now m).view = s.view := by
  have hrecord : (counts s.history).record (.handled m) = counts s.history := by
    rcases hm with rfl | rfl | rfl | ⟨rfl, -⟩ <;> rfl
  obtain ⟨up, lines, heq, -, -⟩ := senderHandles_environment hm now
  rw [heq]
  simp only [System.view, counts_cons, hrecord]

theorem Inv.environment (hi : Inv total burst s) {m : Message}
    (hm : m = .receiveTimeout ∨ m = .terminated ∨ m = .actorIdentity false ∨
      m = .actorIdentity true ∧ s.sender.receive = .active) (now : ℤ) :
    Inv total burst (s.senderHandles now m) :=
  .handles now m hi.total hi.burst ((view_handles_environment hm now).symm ▸ hi.phase)

theorem Inv.identity (hi : Inv total burst s) (found : Bool) (now : ℤ) :
    Inv total burst (s.senderHandles now (.actorIdentity found)) := by
  cases found with
  | false => exact hi.environment (by simp) now
  | true =>
    cases hr : s.sender.receive with
    | active => exact hi.environment (by simp [hr]) now
    | identifying =>
      refine .handles now _ hi.total hi.burst ?_
      obtain ⟨hself, hrecv, hsend, hcounts⟩ := hi.unidentified hr
      have hview : (s.senderHandles now (.actorIdentity true)).view =
          ⟨.active, [.warmup], [], [], .zero⟩ := by
        rw [senderHandles_found hr]
        simp [System.view, hself, hrecv, hsend, counts_cons, hcounts, Counts.record]
      rw [hview]
      exact .warming

/-! ## The token -/

theorem Inv.warmup (hi : Inv total burst s) (hburst : 1 ≤ burst.toInt) {m : Message}
    {rest : List Message} (h : s.toSelf = m :: rest) (now : ℤ) :
    Inv total burst ({ s with toSelf := rest }.senderHandles now m) := by
  refine .handles now m hi.total hi.burst ?_
  obtain ⟨⟨rfl, rfl⟩, hr, hrecv, hsend, hcounts⟩ := hi.warming h
  have hview : ({ s with toSelf := [] }.senderHandles now .warmup).view =
      ⟨.active, [], List.replicate burst.toInt.toNat .payload ++ [.echo .start], [],
        ⟨1, 0, 0, 0, 0, burst.toInt.toNat, 0⟩⟩ := by
    rw [senderHandles_warmup (s := { s with toSelf := [] }) hr]
    simp only [hi.burst, sendBatch_eq, min_self]
    rw [view_batch]
    simp [System.view, hr, hrecv, hsend, counts_cons, hcounts, Counts.record, Counts.zero]
  rw [hview]
  refine .outbound _ _ _ ⟨rfl, rfl, rfl, rfl, rfl, ?_⟩ ?_
  · exact Int.toNat_of_nonneg (by omega)
  · simp

theorem Phase.burst_sent (s : System) (c : Counts) (remaining : Int32) (t0 t1 : ℤ) (n : Int32)
    (hb : s.sender.burstSize = burst) (hburst : 1 ≤ burst.toInt) (hr : 0 ≤ remaining.toInt)
    (hview : s.view = ⟨.active, [], [], [], c⟩)
    (hwarmups : c.warmups = 1) (hstarts : c.starts = 1) (hdones : c.dones = 0)
    (hshutdowns : c.shutdowns = 0) (hbefore : c.before = burst.toInt)
    (hsince : c.since = total.toInt - remaining.toInt)
    (hreceived : c.received = c.before + c.since) :
    Phase total.toInt burst.toInt ((s.sender.sendBatch remaining ++ [Effect.tell
      (.echo (nextEcho (s.sender.afterBatch remaining) t0 t1 n))]).foldl
        System.perform s).view := by
  have hafter := afterBatch_toInt s.sender remaining hr (by rw [hb]; exact hburst)
  obtain ⟨hactive, hself, hrecv, hsend, hcounts⟩ := view_eq_iff.mp hview
  rw [hb] at hafter
  rw [sendBatch_eq, hb, view_batch, hview, hrecv, hcounts]
  have hrecord : ∀ (c : Counts) (e : Echo), c.record (.sent (.echo e)) = c := fun _ _ => rfl
  rw [hrecord]
  refine .outbound _ _ _ ?_ ?_
  · rcases nextEcho_cases (s.sender.afterBatch remaining) t0 t1 n with
      ⟨hzero, hnext⟩ | ⟨hmore, hnext⟩
    · rw [hnext]
      rw [hzero, Int32.toInt_zero] at hafter
      refine ⟨hwarmups, hstarts, hdones, hshutdowns, hbefore, ?_⟩
      simp only [Nat.cast_add]
      omega
    · have hne : (s.sender.afterBatch remaining).toInt ≠ 0 := fun h =>
        hmore (eq_of_toInt (by rw [h, Int32.toInt_zero]))
      rw [hnext]
      refine ⟨hwarmups, hstarts, hdones, hshutdowns, hbefore, ?_, ?_⟩
      · simp only [Nat.cast_add]
        omega
      · omega
  · simp only
    omega

theorem Inv.echoed (hi : Inv total burst s) (htotal : 0 ≤ total.toInt) (hburst : 1 ≤ burst.toInt)
    {e : Echo} {rest : List Echo} (h : s.toSender = e :: rest) (now : ℤ) :
    Inv total burst ({ s with toSender := rest }.senderHandles now (.echo e)) := by
  refine .handles now _ hi.total hi.burst ?_
  obtain ⟨rfl, owed, received, hr, hself, hrecv⟩ := hi.inbound h
  generalize hcounts : counts s.history = c at owed received
  cases e with
  | start =>
    obtain ⟨hwarmups, hstarts, hdones, hshutdowns, hbefore, hsince⟩ := owed
    have hremaining : s.sender.totalMessages.toInt = total.toInt := by rw [hi.total]
    rw [senderHandles_start (s := { s with toSender := [] }) hr]
    refine Phase.burst_sent
      { s with
        sender := { s.sender with startTime := now }
        toSender := []
        printed := s.printed ++ [.starting]
        history := .handled (.echo .start) :: s.history }
      (c.record (.handled (.echo .start))) s.sender.totalMessages _ _ _ hi.burst hburst (by omega)
      ?_ hwarmups ?_ hdones hshutdowns ?_ ?_ ?_
    · simp [System.view, hr, hself, hrecv, counts_cons, hcounts]
    · simp [Counts.record, hstarts]
    · simp [Counts.record, hbefore, hsince]
    · simp [Counts.record, hremaining]
    · simp [Counts.record, received]
  | done =>
    obtain ⟨hwarmups, hstarts, hdones, hshutdowns, hbefore, hsince⟩ := owed
    have hphase : Phase total.toInt burst.toInt ⟨.active, [], [.shutdown], [],
        (c.record (.handled (.echo .done))).record (.sent .shutdown)⟩ := by
      refine .outbound 0 .shutdown _ ⟨hwarmups, hstarts, ?_, ?_, hbefore, hsince⟩ received
      · simp [Counts.record, hdones]
      · simp [Counts.record, hshutdowns]
    refine cast (congrArg (Phase _ _) ?_) hphase
    rw [senderHandles_done (s := { s with toSender := [] }) hr]
    simp [System.view, hr, hself, hrecv, counts_cons, hcounts]
  | «continue» remaining t0 t1 n =>
    obtain ⟨hwarmups, hstarts, hdones, hshutdowns, hbefore, hsince, hpos⟩ := owed
    rw [senderHandles_continue (s := { s with toSender := [] }) hr]
    refine Phase.burst_sent _ c remaining _ _ _ hi.burst hburst hpos.le ?_ hwarmups hstarts hdones
      hshutdowns hbefore hsince received
    simp [System.view, hr, hself, hrecv, counts_cons, hcounts, Counts.record]

theorem Inv.receiver (hi : Inv total burst s) {m : Message} {rest : List Message}
    (h : s.toReceiver = m :: rest) :
    Inv total burst ({ s with toReceiver := rest }.receiverHandles m) := by
  obtain ⟨k, m', hcons, owed, behind, hr, hself, hsend⟩ := hi.outbound h
  generalize hcounts : counts s.history = c at owed behind
  cases k with
  | succ k =>
    obtain ⟨rfl, rfl⟩ := List.cons.inj hcons
    have hphase : Phase total.toInt burst.toInt ⟨.active, [],
        List.replicate k Message.payload ++ [m'], [], c.record (.received .payload)⟩ := by
      refine .outbound k m' _ ?_ ?_
      · cases m' with
        | echo e => cases e <;> exact owed
        | _ => exact owed
      · simp only [Counts.record]
        omega
    refine ⟨hi.total, hi.burst, cast (congrArg (Phase _ _) ?_) hphase⟩
    simp [System.receiverHandles, System.view, hr, hself, hsend, counts_cons, hcounts]
  | zero =>
    obtain ⟨rfl, rfl⟩ := List.cons.inj hcons
    cases m with
    | echo e =>
      have hphase := Phase.inbound e c owed behind
      refine ⟨hi.total, hi.burst, cast (congrArg (Phase _ _) ?_) hphase⟩
      simp [System.receiverHandles, System.view, hr, hself, hsend, counts_cons, hcounts,
        Counts.record]
    | shutdown =>
      have hphase := Phase.closed c owed
      refine ⟨hi.total, hi.burst, cast (congrArg (Phase _ _) ?_) hphase⟩
      simp [System.receiverHandles, System.view, hr, hself, hsend, counts_cons, hcounts,
        Counts.record]
    | _ => exact owed.elim

theorem inv_initial : Inv total burst (.initial total burst) :=
  ⟨rfl, rfl, .identifying⟩

/-- The handlers that a label runs. -/
inductive Steps (s : System) : Label → System → Prop
  | identity (found : Bool) : Steps s (.identity found) (s.senderHandles 0 (.actorIdentity found))
  | timeout : Steps s .timeout (s.senderHandles 0 .receiveTimeout)
  | watched : Steps s .watched (s.senderHandles 0 .terminated)
  | selfNext (now : ℤ) (m : Message) (rest : List Message) (next : s.toSelf = m :: rest) :
      Steps s (.selfNext now) ({ s with toSelf := rest }.senderHandles now m)
  | senderNext (now : ℤ) (e : Echo) (rest : List Echo) (next : s.toSender = e :: rest) :
      Steps s (.senderNext now) ({ s with toSender := rest }.senderHandles now (.echo e))
  | receiverNext (m : Message) (rest : List Message) (next : s.toReceiver = m :: rest) :
      Steps s .receiverNext ({ s with toReceiver := rest }.receiverHandles m)

theorem steps_of_step {e : Label} (h : step s e = some t) : Steps s e t := by
  cases e with
  | identity found =>
    simp only [step] at h
    split at h
    next => cases h; exact .identity found
    next => cases h
  | timeout =>
    simp only [step] at h
    split at h
    next => cases h; exact .timeout
    next => cases h
  | watched =>
    simp only [step] at h
    split at h
    next => cases h; exact .watched
    next => cases h
  | selfNext now =>
    simp only [step] at h
    split at h
    next m rest _ hself => cases h; exact .selfNext now m rest hself
    next => cases h
  | senderNext now =>
    simp only [step] at h
    split at h
    next e rest _ hsend => cases h; exact .senderNext now e rest hsend
    next => cases h
  | receiverNext =>
    simp only [step] at h
    split at h
    next m rest _ hrecv => cases h; exact .receiverNext m rest hrecv
    next => cases h

theorem inv_step (htotal : 0 ≤ total.toInt) (hburst : 1 ≤ burst.toInt) (s : System) (e : Label)
    (t : System) (hi : Inv total burst s) (h : step s e = some t) : Inv total burst t := by
  cases steps_of_step h with
  | identity found => exact hi.identity found 0
  | timeout => exact hi.environment (Or.inl rfl) 0
  | watched => exact hi.environment (Or.inr (Or.inl rfl)) 0
  | selfNext now m rest hself => exact hi.warmup hburst hself now
  | senderNext now e rest hsend => exact hi.echoed htotal hburst hsend now
  | receiverNext m rest hrecv => exact hi.receiver hrecv

theorem inv_reachable (htotal : 0 ≤ total.toInt) (hburst : 1 ≤ burst.toInt)
    (h : Reaches total burst s) : Inv total burst s :=
  h.invariant inv_initial fun s e t _ hi ht => inv_step htotal hburst s e t hi ht

/-! ## Safety -/

def Message.isControl : Message → Bool
  | .warmup | .shutdown | .echo _ => true
  | _ => false

def System.controls (s : System) : List Message :=
  (s.toSelf ++ s.toReceiver ++ s.toSender.map Message.echo).filter Message.isControl

/-- In every state: one control message at most, and the count that a `Continue` carries; when the
sender is to handle `Done`, what has been sent and received; and nothing happens twice. -/
structure Safe (totalMessages burstSize : Int32) (s : System) : Prop where
  one_control : s.controls.length ≤ 1
  continue_count : ∀ remaining t0 t1 n, .echo (.continue remaining t0 t1 n) ∈ s.controls →
    (sentSinceStart s.history : ℤ) = totalMessages.toInt - remaining.toInt
  done_count : s.toSender.head? = some .done →
    (sentBeforeStart s.history : ℤ) = burstSize.toInt ∧
    (sentSinceStart s.history : ℤ) = totalMessages.toInt ∧
    s.history.count (.received .payload) = s.history.count (.sent .payload)
  warmup_once : s.history.count (.handled .warmup) ≤ 1
  start_once : s.history.count (.handled (.echo .start)) ≤ 1
  done_once : s.history.count (.handled (.echo .done)) ≤ 1
  shutdown_once : s.history.count (.sent .shutdown) ≤ 1

def View.controls (v : View) : List Message :=
  (v.toSelf ++ v.toReceiver ++ v.toSender.map Message.echo).filter Message.isControl

theorem Owed.isControl {total burst : ℤ} {c : Counts} {m : Message} (h : Owed total burst c m) :
    m.isControl = true := by
  cases m with
  | echo e => rfl
  | shutdown => rfl
  | _ => exact h.elim

theorem Owed.once {total burst : ℤ} {c : Counts} {m : Message} (h : Owed total burst c m) :
    c.warmups ≤ 1 ∧ c.starts ≤ 1 ∧ c.dones ≤ 1 ∧ c.shutdowns ≤ 1 := by
  cases m with
  | echo e =>
    cases e with
    | start => obtain ⟨h1, h2, h3, h4, -⟩ := h; omega
    | done => obtain ⟨h1, h2, h3, h4, -⟩ := h; omega
    | «continue» remaining t0 t1 n => obtain ⟨h1, h2, h3, h4, -⟩ := h; omega
  | shutdown => obtain ⟨h1, h2, h3, h4, -⟩ := h; omega
  | _ => exact h.elim

theorem Phase.controls {total burst : ℤ} {v : View} (h : Phase total burst v) :
    v.controls = [] ∨
      ∃ m, v.controls = [m] ∧ (m = .warmup ∨ Owed total burst v.counts m) := by
  cases h with
  | identifying => exact Or.inl rfl
  | warming => exact Or.inr ⟨.warmup, rfl, Or.inl rfl⟩
  | outbound k m c owed behind =>
    refine Or.inr ⟨m, ?_, Or.inr owed⟩
    have hpayload : Message.payload.isControl = false := rfl
    simp [View.controls, hpayload, owed.isControl]
  | inbound e c owed received => exact Or.inr ⟨.echo e, rfl, Or.inr owed⟩
  | closed c owed => exact Or.inl rfl

theorem Phase.once {total burst : ℤ} {v : View} (h : Phase total burst v) :
    v.counts.warmups ≤ 1 ∧ v.counts.starts ≤ 1 ∧ v.counts.dones ≤ 1 ∧ v.counts.shutdowns ≤ 1 := by
  cases h with
  | identifying => simp [Counts.zero]
  | warming => simp [Counts.zero]
  | outbound k m c owed behind => exact owed.once
  | inbound e c owed received => exact owed.once
  | closed c owed => exact owed.once

/-- The benchmark keeps one token and one count in step, over every run. -/
theorem benchmark_protocol (totalMessages burstSize : Int32) (htotal : 0 ≤ totalMessages)
    (hburst : 1 ≤ burstSize) (s : System) (h : Reaches totalMessages burstSize s) :
    Safe totalMessages burstSize s := by
  have hphase := (inv_reachable (nonneg_iff.mp htotal) (one_le_iff.mp hburst) h).phase
  obtain ⟨hwarmups, hstarts, hdones, hshutdowns⟩ := hphase.once
  refine
    { one_control := ?_
      continue_count := fun remaining t0 t1 n hmem => ?_
      done_count := fun hdone => ?_
      warmup_once := hwarmups
      start_once := hstarts
      done_once := hdones
      shutdown_once := hshutdowns }
  · change s.view.controls.length ≤ 1
    rcases hphase.controls with hnil | ⟨m, hm, -⟩
    · rw [hnil]
      exact Nat.zero_le 1
    · rw [hm, List.length_singleton]
  · change _ ∈ s.view.controls at hmem
    rcases hphase.controls with hnil | ⟨m, hm, howed⟩
    · rw [hnil] at hmem
      cases hmem
    · rw [hm, List.mem_singleton] at hmem
      subst hmem
      rcases howed with hwarmup | ⟨-, -, -, -, -, hsince, -⟩
      · cases hwarmup
      · exact hsince
  · generalize hv : s.view = v at hphase
    obtain ⟨-, -, -, hsend, hcounts⟩ := view_eq_iff.mp hv
    cases hphase with
    | inbound e c owed received =>
      rw [hsend] at hdone
      cases hdone
      obtain ⟨-, -, -, -, hbefore, hsince⟩ := owed
      subst hcounts
      refine ⟨hbefore, hsince, ?_⟩
      rw [← sent_before_add_since]
      exact received
    | identifying => rw [hsend] at hdone; cases hdone
    | warming => rw [hsend] at hdone; cases hdone
    | outbound k m c owed behind => rw [hsend] at hdone; cases hdone
    | closed c owed => rw [hsend] at hdone; cases hdone

end Runs

/-- Three messages in bursts of two, with a retry and a repeated answer, up to `Done`. -/
def threeMessages : List Label :=
  [.timeout, .identity false, .identity true, .selfNext 0, .identity true, .receiverNext,
    .receiverNext, .receiverNext, .senderNext 1, .receiverNext, .receiverNext, .receiverNext,
    .senderNext 5, .timeout, .receiverNext, .receiverNext]

theorem benchmark_protocol_three :
    ∃ s, Transition.run step (.initial 3 2) threeMessages = some s ∧ s.toSender = [.done] ∧
      Safe 3 2 s := by
  have hrun : (Transition.run step (.initial 3 2) threeMessages).map System.toSender =
      some [.done] := by decide
  obtain ⟨s, hs, hsend⟩ := Option.map_eq_some_iff.mp hrun
  exact ⟨s, hs, hsend, benchmark_protocol 3 2 (by decide) (by decide) s ⟨threeMessages, hs⟩⟩

end SbtExample.Benchmark
