import SbtExample.Benchmark.Course
import SbtExample.Foundations.Fairness

/-! # The end of the benchmark loop

When every control message is echoed, the rounds follow one another, so that the loop ends with the
first round after which nothing remains. Without a positive burst size there is none, or nothing was
to be sent.
-/
set_option autoImplicit false
set_option maxHeartbeats 250000

namespace SbtExample.Benchmark
open MachineInt Transition

section End
variable {total burst : Int32} {s t : System}

/-- The remaining value has reached 0, and all messages have been sent since `Start`. -/
def AllSent (total : Int32) (s : System) : Prop :=
  0 ∈ remainings s.history ∧ (sentSinceStart s.history : ℤ) = total.toInt

/-- Every message to the receiver, and every echo of it, is handled some time. -/
def EchoesBack (x : Execution step) : Prop :=
  x.FairTo (· = .receiverNext) ∧ x.FairTo fun e => ∃ now, e = .senderNext now

/-- The loop that begins when `Start` is handled comes to its end. -/
def Ends (totalMessages burstSize : Int32) : Prop :=
  ∀ x : Execution step, x.state 0 = .initial totalMessages burstSize → EchoesBack x →
    ∀ n, .handled (.echo .start) ∈ (x.state n).history → ∃ m ≥ n, AllSent totalMessages (x.state m)

structure Underway (total burst : Int32) (s : System) : Prop where
  sound : Sound total burst s
  started : .handled (.echo .start) ∈ s.history
  unfinished : ¬ Finished total burst s.glance

/-- The rounds that are left, and how far the token is from the sender. -/
def rank (last : ℕ) (s : System) : ℕ ×ₗ ℕ :=
  toLex (last - (remainings s.history).length, s.toReceiver.length)

def helpful (s : System) (e : Label) : Prop :=
  if s.toReceiver = [] then ∃ now, e = .senderNext now else e = .receiverNext

theorem Finished.allSent (h : Finished total burst s.glance) {last : ℕ}
    (hlast : LastRound total burst last) (hall : (payloads total burst last : ℤ) = total.toInt) :
    AllSent total s := by
  obtain ⟨k, hk, hsince⟩ := h.last
  rw [hk.unique hlast] at hsince
  refine ⟨h.zero, ?_⟩
  rw [← hall, ← hsince]
  rfl

theorem Underway.token (h : Underway total burst s) :
    ∃ k e c rs, Token total burst k e c rs ∧ ((∃ j, s.glance =
        ⟨⟨.active, [], List.replicate j .payload ++ [.echo e], [], c⟩, true, true, rs⟩) ∨
      s.glance = ⟨⟨.active, [], [], [e], c⟩, true, true, rs⟩) ∧ rs.length = k ∧
      ∀ last, LastRound total burst last → k < last := by
  have hstarts : (counts s.history).starts ≠ 0 := fun hzero =>
    List.count_eq_zero.mp hzero h.started
  have htoken : ∀ {k e c rs}, Token total burst k e c rs → c = counts s.history →
      rs.length = k ∧ ∀ last, LastRound total burst last → k < last := by
    intro k e c rs htoken hc
    cases htoken with
    | start c starts => exact absurd (hc ▸ starts) hstarts
    | «continue» k t0 t1 n c rs pos length since going =>
      refine ⟨length, fun last hlast => Nat.lt_of_not_le fun hle => ?_⟩
      exact going last hlast.pos hle hlast.zero
  have hcourse := h.sound.course
  generalize hg : s.glance = g at hcourse
  cases hcourse with
  | identifying c starts =>
    exact absurd ((view_eq_iff.mp (glance_eq_iff.mp hg).1).2.2.2.2 ▸ starts) hstarts
  | warming c starts =>
    exact absurd ((view_eq_iff.mp (glance_eq_iff.mp hg).1).2.2.2.2 ▸ starts) hstarts
  | outbound k j e c rs token =>
    have hc := (view_eq_iff.mp (glance_eq_iff.mp hg).1).2.2.2.2.symm
    exact ⟨k, e, c, rs, token, Or.inl ⟨j, rfl⟩, htoken token hc⟩
  | inbound k e c rs token =>
    have hc := (view_eq_iff.mp (glance_eq_iff.mp hg).1).2.2.2.2.symm
    exact ⟨k, e, c, rs, token, Or.inr rfl, htoken token hc⟩
  | finished _ hf => exact absurd (hg ▸ hf) h.unfinished

theorem rank_of_glance {last : ℕ} (h : t.glance = s.glance) :
    rank last t = rank last s ∧ helpful t = helpful s := by
  have hrs : remainings t.history = remainings s.history := congrArg Glance.remainings h
  have hrecv : t.toReceiver = s.toReceiver := congrArg (fun g => g.view.toReceiver) h
  constructor
  · rw [rank, rank, hrs, hrecv]
  · funext e
    rw [helpful, helpful, hrecv]

theorem Underway.enabled (h : Underway total burst s) :
    ∃ e, helpful s e ∧ step s e ≠ none := by
  obtain ⟨k, e, c, rs, -, ⟨j, hg⟩ | hg, -⟩ := h.token
  · obtain ⟨hv, -, hup, -⟩ := glance_eq_iff.mp hg
    obtain ⟨-, -, hrecv, -⟩ := view_eq_iff.mp hv
    refine ⟨.receiverNext, ?_, ?_⟩
    · rw [helpful, if_neg (by simp [hrecv])]
    · cases j <;> simp [step, hup, hrecv, List.replicate_succ]
  · obtain ⟨hv, hup, -⟩ := glance_eq_iff.mp hg
    obtain ⟨-, -, hrecv, hsend, -⟩ := view_eq_iff.mp hv
    refine ⟨.senderNext 0, ?_, ?_⟩
    · rw [helpful, if_pos hrecv]
      exact ⟨0, rfl⟩
    · simp [step, hup, hsend]

/-- A message that is handled brings the token nearer to the sender, and an echo ends a round. -/
theorem Underway.next (h : Underway total burst s) {last : ℕ} (hlast : LastRound total burst last)
    {e : Label} (ht : step s e = some t) :
    rank last t < rank last s ∨
      rank last t = rank last s ∧ helpful t = helpful s ∧ ¬ helpful s e := by
  obtain ⟨k, echo, c, rs, htoken, hplace, hlength, hlt⟩ := h.token
  have hk := hlt last hlast
  have hactive : s.sender.receive = .active ∧ s.toSelf = [] ∧ s.receiverUp = true ∧
      remainings s.history = rs := by
    rcases hplace with ⟨j, hg⟩ | hg
    · obtain ⟨hv, -, hup, hrs⟩ := glance_eq_iff.mp hg
      exact ⟨(view_eq_iff.mp hv).1, (view_eq_iff.mp hv).2.1, hup, hrs⟩
    · obtain ⟨hv, -, hup, hrs⟩ := glance_eq_iff.mp hg
      exact ⟨(view_eq_iff.mp hv).1, (view_eq_iff.mp hv).2.1, hup, hrs⟩
  obtain ⟨hr, hself, hup, hrs⟩ := hactive
  have henvironment : ∀ m, (m = .receiveTimeout ∨ m = .actorIdentity false ∨
      m = .actorIdentity true ∧ s.sender.receive = .active) →
      rank last (s.senderHandles 0 m) = rank last s ∧ helpful (s.senderHandles 0 m) = helpful s :=
    fun m hm => rank_of_glance (glance_handles_environment hm 0)
  cases steps_of_step ht with
  | identity found =>
    obtain ⟨hrank, hhelpful⟩ := henvironment (.actorIdentity found) (by cases found <;> simp [hr])
    refine Or.inr ⟨hrank, hhelpful, ?_⟩
    rw [helpful]
    split <;> simp
  | timeout =>
    obtain ⟨hrank, hhelpful⟩ := henvironment .receiveTimeout (Or.inl rfl)
    refine Or.inr ⟨hrank, hhelpful, ?_⟩
    rw [helpful]
    split <;> simp
  | watched => cases (receiver_down_of_watched ht).symm.trans hup
  | selfNext now m rest hnext => cases hself.symm.trans hnext
  | senderNext now e rest hnext =>
    rcases hplace with ⟨j, hg⟩ | hg
    · cases (view_eq_iff.mp (glance_eq_iff.mp hg).1).2.2.2.1.symm.trans hnext
    · obtain ⟨rfl, rfl⟩ := List.cons.inj
        ((view_eq_iff.mp (glance_eq_iff.mp hg).1).2.2.2.1.symm.trans hnext)
      have hround := (Course.echoed h.sound.totalMessages h.sound.burstSize hg htoken now).2
      refine Or.inl (Prod.Lex.toLex_lt_toLex.mpr (Or.inl ?_))
      change last - (remainings _).length < last - _
      rw [show (remainings _).length = k + 1 from hround, hrs, hlength]
      omega
  | receiverNext m rest hnext =>
    refine Or.inl (Prod.Lex.toLex_lt_toLex.mpr (Or.inr ?_))
    change last - (remainings _).length = _ ∧ _ < _
    rw [receiverHandles_history, receiverHandles_toReceiver, hnext]
    exact ⟨rfl, Nat.lt_succ_self _⟩

theorem helps {last : ℕ} (hlast : LastRound total burst last)
    (hall : (payloads total burst last : ℤ) = total.toInt) :
    HelpsBy step (Underway total burst) (AllSent total) (rank last) helpful where
  enabled _ h := h.enabled
  next s e t h ht := by
    have hsound := sound_step s e t h.sound ht
    by_cases hfinished : Finished total burst t.glance
    · exact Or.inl (hfinished.allSent hlast hall)
    · exact Or.inr ⟨⟨hsound, mem_history_step ht h.started, hfinished⟩, h.next hlast ht⟩

theorem reaches_of_execution (x : Execution step) (hx : x.state 0 = .initial total burst) (n : ℕ) :
    Reaches total burst (x.state n) := by
  have hreachable := x.reachable n
  rwa [hx] at hreachable

theorem ends_of_lastRound {last : ℕ} (hlast : LastRound total burst last)
    (hall : (payloads total burst last : ℤ) = total.toInt) : Ends total burst := by
  intro x hx ⟨hreceiver, hsender⟩ n hstarted
  have hsound := sound_reachable (reaches_of_execution x hx n)
  by_cases hfinished : Finished total burst (x.state n).glance
  · exact ⟨n, le_rfl, hfinished.allSent hlast hall⟩
  · refine (helps hlast hall).reaches x (fun s _ => ?_) ⟨hsound, hstarted, hfinished⟩
    by_cases hempty : s.toReceiver = []
    · have hkind : helpful s = fun e => ∃ now, e = .senderNext now := by
        funext e
        rw [helpful, if_pos hempty]
      rw [hkind]
      exact hsender
    · have hkind : helpful s = fun e => e = .receiverNext := by
        funext e
        rw [helpful, if_neg hempty]
      rw [hkind]
      exact hreceiver

/-! ## Burst sizes that send nothing -/

theorem sendBatch_of_nonpos {s : Sender} (h : s.burstSize.toInt ≤ 0) (remaining : Int32) :
    s.sendBatch remaining = [] := by
  have hnone : (min remaining.toInt s.burstSize.toInt).toNat = 0 := by omega
  rw [sendBatch_eq, hnone]
  rfl

theorem payload_not_mem_handle {s : Sender} (h : s.burstSize.toInt ≤ 0) (now : ℤ) (m : Message) :
    .tell .payload ∉ (s.handle now m).2 := by
  unfold Sender.handle
  cases s.receive with
  | identifying =>
    cases m with
    | actorIdentity found => cases found <;> simp [Sender.identifying]
    | _ => simp [Sender.identifying]
  | active =>
    cases m with
    | echo e =>
      cases e with
      | start => simp [Sender.active, Sender.onStart, sendBatch_of_nonpos h]
      | done => simp [Sender.active]
      | «continue» remaining t0 t1 n =>
        by_cases hduration : 500 ≤ toMillis (now - t0)
        · simp [Sender.active, Sender.onContinue, sendBatch_of_nonpos h, hduration]
        · simp [Sender.active, Sender.onContinue, sendBatch_of_nonpos h, hduration]
    | _ => simp [Sender.active, sendBatch_of_nonpos h]

theorem payload_not_mem_reachable (hburst : burst.toInt ≤ 0) (h : Reaches total burst s) :
    .sent .payload ∉ s.history := by
  refine h.invariant (I := fun s => .sent .payload ∉ s.history) List.not_mem_nil
    fun s e t hr hs ht => ?_
  have hb := (sound_reachable hr).burstSize
  have hhandled : ∀ (u : System) (now : ℤ) (m : Message), u.history = s.history →
      u.sender = s.sender → .sent .payload ∉ (u.senderHandles now m).history := by
    intro u now m hu hsender hmem
    rcases (mem_history_foldl _ _ _).mp hmem with hmem | ⟨m', hm', heq⟩
    · rcases List.mem_cons.mp hmem with heq | hmem
      · cases heq
      · exact hs (hu ▸ hmem)
    · cases heq
      refine payload_not_mem_handle ?_ now m hm'
      rw [hsender, hb]
      exact hburst
  cases steps_of_step ht with
  | identity found => exact hhandled s 0 _ rfl rfl
  | timeout => exact hhandled s 0 _ rfl rfl
  | watched => exact hhandled s 0 _ rfl rfl
  | selfNext now m rest hself => exact hhandled _ now m rfl rfl
  | senderNext now e rest hsend => exact hhandled _ now _ rfl rfl
  | receiverNext m rest hrecv => cases m <;> simpa [System.receiverHandles] using hs

/-- The receiver is found and every message handled, in turn. -/
def inTurn (n : ℕ) : Label :=
  match n % 4 with
  | 0 => .identity true
  | 1 => .selfNext 0
  | 2 => .receiverNext
  | _ => .senderNext 0

theorem echoesBack_inTurn (s₀ : System) : EchoesBack (.ofSchedule step inTurn s₀) := by
  constructor
  · refine Execution.fair_ofSchedule fun n => ⟨4 * n + 2, by omega, ?_⟩
    have hoffer : inTurn (4 * n + 2) = .receiverNext := by
      rw [inTurn, show (4 * n + 2) % 4 = 2 by omega]
      rfl
    rw [hoffer]
    refine ⟨rfl, fun s e he => ?_⟩
    rw [he]
    exact id
  · refine Execution.fair_ofSchedule fun n => ⟨4 * n + 3, by omega, ?_⟩
    have hoffer : inTurn (4 * n + 3) = .senderNext 0 := by
      rw [inTurn, show (4 * n + 3) % 4 = 3 by omega]
      rfl
    rw [hoffer]
    refine ⟨⟨0, rfl⟩, fun s e he henabled => ?_⟩
    obtain ⟨now, rfl⟩ := he
    simp only [step] at henabled ⊢
    split at henabled
    next hup hnext => simp [hup]
    next => exact absurd rfl henabled

theorem start_handled_inTurn (hburst : burst.toInt ≤ 0) :
    .handled (.echo .start) ∈
      ((Execution.ofSchedule step inTurn (.initial total burst)).state 4).history := by
  have hnone : ∀ remaining, (Sender.mk total burst 0 0 .active false).sendBatch remaining = [] :=
    sendBatch_of_nonpos hburst
  have hrun : ∃ s, run step (.initial total burst) ((List.range 4).map inTurn) = some s ∧
      .handled (.echo .start) ∈ s.history := by
    simp [run, inTurn, step, System.initial, Sender.new, System.senderHandles, Sender.handle,
      Sender.identifying, Sender.active, Sender.onStart, hnone, System.perform,
      System.receiverHandles, List.range_succ]
  obtain ⟨s, hs, hmem⟩ := hrun
  rw [Execution.state_ofSchedule 4 s hs]
  exact hmem

theorem not_ends_of_nonpos (htotal : 0 < total.toInt) (hburst : burst.toInt ≤ 0) :
    ¬ Ends total burst := by
  intro h
  let x := Execution.ofSchedule step inTurn (.initial total burst)
  obtain ⟨m, -, -, hsent⟩ := h x rfl (echoesBack_inTurn _) 4 (start_handled_inTurn hburst)
  have hnone := payload_not_mem_reachable hburst (reaches_of_execution x rfl m)
  have hzero : sentSinceStart (x.state m).history = 0 :=
    List.count_eq_zero_of_not_mem fun hmem => hnone ((List.takeWhile_sublist _).subset hmem)
  rw [hzero] at hsent
  omega

/-- Exactly for the positive burst sizes, or when there is nothing to send. -/
theorem benchmark_ends_iff (totalMessages burstSize : Int32) (htotal : 0 ≤ totalMessages) :
    Ends totalMessages burstSize ↔ 1 ≤ burstSize ∨ totalMessages = 0 := by
  have hnonneg := nonneg_iff.mp htotal
  constructor
  · intro h
    by_contra hnot
    obtain ⟨hburst, hne⟩ := not_or.mp hnot
    rw [one_le_iff] at hburst
    have hpos : totalMessages.toInt ≠ 0 := fun hzero =>
      hne (eq_of_toInt (by rw [hzero, Int32.toInt_zero]))
    exact not_ends_of_nonpos (by omega) (by omega) h
  · intro h
    obtain ⟨last, hlast, hall⟩ := exists_lastRound hnonneg h
    exact ends_of_lastRound hlast hall

end End

theorem benchmark_ends_iff_three : Ends 3 2 ↔ 1 ≤ (2 : Int32) ∨ (3 : Int32) = 0 :=
  benchmark_ends_iff 3 2 (by decide)

/-- One message in bursts of size 0: the remaining value stays 1. -/
theorem zero_burst_never_ends :
    ¬ ∀ totalMessages burstSize : Int32, 0 ≤ totalMessages → Ends totalMessages burstSize :=
  fun h => not_ends_of_nonpos (by decide) (by decide) (h 1 0 (by decide))

end SbtExample.Benchmark
