import SbtExample.Benchmark.Rounds
import SbtExample.Benchmark.Runs

/-! # The course of a run

Whatever the burst size is, one token goes round, and it carries what remains after the rounds so
far. When nothing remains it is `Done`, and no payload is sent from then on.
-/
set_option autoImplicit false
set_option maxHeartbeats 250000

namespace SbtExample.Benchmark

/-! ## What the course reads of a state -/

/-- The value that `sendBatch` gave to the handler of `Start` or `Continue`, by what it sent: upon 0
it is `Done`, and else a `Continue`. -/
def Event.remaining? : Event → Option Int32
  | .sent (.echo .done) => some 0
  | .sent (.echo (.continue remaining _ _ _)) => some remaining
  | _ => none

def remainings (h : List Event) : List Int32 := h.filterMap Event.remaining?

@[ext] structure Glance where
  view : View
  senderUp : Bool
  receiverUp : Bool
  remainings : List Int32

def System.glance (s : System) : Glance :=
  ⟨s.view, s.senderUp, s.receiverUp, Benchmark.remainings s.history⟩

section Course
variable (total burst : Int32)

/-- What the token `e` says when `k` rounds are over. -/
inductive Token : ℕ → Echo → Counts → List Int32 → Prop
  | start (c : Counts) (starts : c.starts = 0) : Token 0 .start c []
  | continue (k : ℕ) (t0 t1 : ℤ) (n : Int32) (c : Counts) (rs : List Int32) (pos : 0 < k)
      (length : rs.length = k) (since : c.since = payloads total burst k)
      (going : ∀ j, 0 < j → j ≤ k → remainder total burst j ≠ 0) :
      Token k (.continue (remainder total burst k) t0 t1 n) c rs

structure Finished (g : Glance) : Prop where
  receive : g.view.receive = .active
  toSelf : g.view.toSelf = []
  toReceiver : ∀ m ∈ g.view.toReceiver, m = .payload ∨ m = .echo .done ∨ m = .shutdown
  toSender : ∀ e ∈ g.view.toSender, e = .done
  zero : 0 ∈ g.remainings
  last : ∃ k, LastRound total burst k ∧ g.view.counts.since = payloads total burst k

inductive Course : Glance → Prop
  | identifying (c : Counts) (starts : c.starts = 0) :
      Course ⟨⟨.identifying, [], [], [], c⟩, true, true, []⟩
  | warming (c : Counts) (starts : c.starts = 0) :
      Course ⟨⟨.active, [.warmup], [], [], c⟩, true, true, []⟩
  | outbound (k j : ℕ) (e : Echo) (c : Counts) (rs : List Int32)
      (token : Token total burst k e c rs) :
      Course ⟨⟨.active, [], List.replicate j .payload ++ [.echo e], [], c⟩, true, true, rs⟩
  | inbound (k : ℕ) (e : Echo) (c : Counts) (rs : List Int32)
      (token : Token total burst k e c rs) : Course ⟨⟨.active, [], [], [e], c⟩, true, true, rs⟩
  | finished (g : Glance) (h : Finished total burst g) : Course g

structure Sound (s : System) : Prop where
  totalMessages : s.sender.totalMessages = total
  burstSize : s.sender.burstSize = burst
  course : Course total burst s.glance

end Course

section Steps
variable {total burst : Int32} {s t : System}

theorem glance_eq_iff {v : View} {up up' : Bool} {rs : List Int32} :
    s.glance = ⟨v, up, up', rs⟩ ↔
      s.view = v ∧ s.senderUp = up ∧ s.receiverUp = up' ∧ remainings s.history = rs := by
  rw [System.glance, Glance.mk.injEq]

/-- A burst and its token, sent when nothing is on its way. -/
theorem glance_batch {c : Counts} {rs : List Int32}
    (h : s.glance = ⟨⟨.active, [], [], [], c⟩, true, true, rs⟩) (k : ℕ) (e : Echo) :
    ((List.replicate k (Effect.tell .payload) ++ [Effect.tell (.echo e)]).foldl
        System.perform s).glance =
      ⟨⟨.active, [], List.replicate k .payload ++ [.echo e], [], { c with since := c.since + k }⟩,
        true, true, (Event.sent (.echo e)).remaining?.toList ++ rs⟩ := by
  obtain ⟨hv, hsender, hreceiver, rfl⟩ := glance_eq_iff.mp h
  obtain ⟨hr, hself, hrecv, hsend, rfl⟩ := view_eq_iff.mp hv
  have hquiet : remainings (List.replicate k (.sent .payload) ++ s.history) =
      remainings s.history := by
    rw [remainings, List.filterMap_append, List.filterMap_replicate_of_none rfl]
    rfl
  refine glance_eq_iff.mpr ⟨?_, ?_, ?_, ?_⟩
  · rw [view_batch, hv, hrecv]
    rfl
  · rw [foldl_batch]
    exact hsender
  · rw [foldl_batch]
    exact hreceiver
  · rw [foldl_batch, ← hquiet]
    simp only [remainings, List.filterMap_cons]
    cases (Event.sent (.echo e)).remaining? <;> rfl

theorem Sound.handles (now : ℤ) (m : Message) (htotal : s.sender.totalMessages = total)
    (hburst : s.sender.burstSize = burst)
    (course : Course total burst (s.senderHandles now m).glance) :
    Sound total burst (s.senderHandles now m) := by
  obtain ⟨htotal', hburst'⟩ := handle_parameters s.sender now m
  have hfold : (s.senderHandles now m).sender = (s.sender.handle now m).1 :=
    foldl_perform_sender _ _
  exact ⟨by rw [hfold, htotal', htotal], by rw [hfold, hburst', hburst], course⟩

/-! ## Retries and late answers -/

theorem glance_handles_environment {m : Message}
    (hm : m = .receiveTimeout ∨ m = .actorIdentity false ∨
      m = .actorIdentity true ∧ s.sender.receive = .active) (now : ℤ) :
    (s.senderHandles now m).glance = s.glance := by
  have hall : m = .receiveTimeout ∨ m = .terminated ∨ m = .actorIdentity false ∨
      m = .actorIdentity true ∧ s.sender.receive = .active := hm.imp_right Or.inr
  have hne : m ≠ .terminated := by
    rcases hm with rfl | rfl | ⟨rfl, -⟩ <;> simp
  have hview := view_handles_environment hall now
  obtain ⟨up, lines, heq, hup, -⟩ := senderHandles_environment hall now
  rw [heq] at hview ⊢
  rw [System.glance, hview, hup hne]
  rfl

theorem Sound.environment (hs : Sound total burst s) {m : Message}
    (hm : m = .receiveTimeout ∨ m = .actorIdentity false ∨
      m = .actorIdentity true ∧ s.sender.receive = .active) (now : ℤ) :
    Sound total burst (s.senderHandles now m) :=
  .handles now m hs.totalMessages hs.burstSize
    ((glance_handles_environment hm now).symm ▸ hs.course)

theorem Sound.identity (hs : Sound total burst s) (found : Bool) (now : ℤ) :
    Sound total burst (s.senderHandles now (.actorIdentity found)) := by
  cases found with
  | false => exact hs.environment (by simp) now
  | true =>
    cases hr : s.sender.receive with
    | active => exact hs.environment (by simp [hr]) now
    | identifying =>
      refine .handles now _ hs.totalMessages hs.burstSize ?_
      have hcourse := hs.course
      generalize hg : s.glance = g at hcourse
      cases hcourse with
      | identifying c starts =>
        obtain ⟨hv, hsender, hreceiver, hrs⟩ := glance_eq_iff.mp hg
        obtain ⟨-, hself, hrecv, hsend, rfl⟩ := view_eq_iff.mp hv
        have hglance : (s.senderHandles now (.actorIdentity true)).glance =
            ⟨⟨.active, [.warmup], [], [], counts s.history⟩, true, true, []⟩ := by
          rw [senderHandles_found hr]
          exact glance_eq_iff.mpr
            ⟨view_eq_iff.mpr ⟨rfl, by rw [hself]; rfl, hrecv, hsend, counts_cons _ _⟩, hsender,
              hreceiver, hrs⟩
        rw [hglance]
        exact .warming _ starts
      | warming c starts => rw [(view_eq_iff.mp (glance_eq_iff.mp hg).1).1] at hr; cases hr
      | outbound k j e c rs token => rw [(view_eq_iff.mp (glance_eq_iff.mp hg).1).1] at hr; cases hr
      | inbound k e c rs token => rw [(view_eq_iff.mp (glance_eq_iff.mp hg).1).1] at hr; cases hr
      | finished _ h =>
        have hactive := h.receive
        rw [← hg] at hactive
        exact absurd (hr.symm.trans hactive) (by simp)

/-! ## The token -/

theorem Sound.warmup (hs : Sound total burst s) {m : Message} {rest : List Message}
    (h : s.toSelf = m :: rest) (now : ℤ) :
    Sound total burst ({ s with toSelf := rest }.senderHandles now m) := by
  refine .handles now m hs.totalMessages hs.burstSize ?_
  have hcourse := hs.course
  generalize hg : s.glance = g at hcourse
  cases hcourse with
  | warming c starts =>
    obtain ⟨hv, hsender, hreceiver, hrs⟩ := glance_eq_iff.mp hg
    obtain ⟨hr, hself, hrecv, hsend, hcounts⟩ := view_eq_iff.mp hv
    obtain ⟨rfl, rfl⟩ := List.cons.inj (hself.symm.trans h)
    have hhandled : ({ s with
        toSelf := []
        history := .handled .warmup :: s.history } : System).glance =
        ⟨⟨.active, [], [], [], c.record (.handled .warmup)⟩, true, true, []⟩ :=
      glance_eq_iff.mpr
        ⟨view_eq_iff.mpr ⟨hr, rfl, hrecv, hsend, by rw [counts_cons, hcounts]⟩, hsender,
          hreceiver, hrs⟩
    rw [senderHandles_warmup (s := { s with toSelf := [] }) hr, sendBatch_eq,
      glance_batch hhandled]
    exact .outbound 0 _ .start _ _ (.start _ starts)
  | identifying c starts =>
    cases (view_eq_iff.mp (glance_eq_iff.mp hg).1).2.1.symm.trans h
  | outbound k j e c rs token => cases (view_eq_iff.mp (glance_eq_iff.mp hg).1).2.1.symm.trans h
  | inbound k e c rs token => cases (view_eq_iff.mp (glance_eq_iff.mp hg).1).2.1.symm.trans h
  | finished _ hf =>
    have hself := hf.toSelf
    rw [← hg] at hself
    cases hself.symm.trans h

theorem batch_eq (total : Int32) (hb : s.sender.burstSize = burst) (k : ℕ) :
    s.sender.sendBatch (remainder total burst k) = List.replicate
        ((Sender.new total burst).sendBatch (remainder total burst k)).length (.tell .payload) ∧
      s.sender.afterBatch (remainder total burst k) = remainder total burst (k + 1) := by
  constructor
  · rw [sendBatch_eq, sendBatch_eq, List.length_replicate, hb]
    rfl
  · rw [remainder, Sender.afterBatch, Sender.afterBatch, Sender.batchSize, Sender.batchSize, hb]
    rfl

/-- After `k` rounds: the next burst, and a `Continue` or `Done`. -/
theorem Course.round (u : System) (k : ℕ) (c : Counts) (rs : List Int32) (remaining n : Int32)
    (t0 t1 : ℤ) (hb : u.sender.burstSize = burst)
    (hremaining : remaining = remainder total burst k)
    (hu : u.glance = ⟨⟨.active, [], [], [], c⟩, true, true, rs⟩) (hlength : rs.length = k)
    (hsince : c.since = payloads total burst k)
    (hgoing : ∀ j, 0 < j → j ≤ k → remainder total burst j ≠ 0) :
    Course total burst ((u.sender.sendBatch remaining ++ [Effect.tell
        (.echo (nextEcho (u.sender.afterBatch remaining) t0 t1 n))]).foldl
          System.perform u).glance ∧
      ((u.sender.sendBatch remaining ++ [Effect.tell
        (.echo (nextEcho (u.sender.afterBatch remaining) t0 t1 n))]).foldl
          System.perform u).glance.remainings.length = k + 1 := by
  obtain ⟨hbatch, hafter⟩ := batch_eq total hb k
  subst hremaining
  rw [hafter]
  have hsent : c.since + ((Sender.new total burst).sendBatch (remainder total burst k)).length =
      payloads total burst (k + 1) := by rw [payloads, hsince]
  rw [hbatch, glance_batch hu]
  rcases nextEcho_cases (remainder total burst (k + 1)) t0 t1 n with
    ⟨hzero, hnext⟩ | ⟨hmore, hnext⟩
  · rw [hnext]
    refine ⟨.finished _ ⟨rfl, rfl, fun m hm => ?_, fun m hm => absurd hm List.not_mem_nil,
      List.mem_cons_self .., k + 1, ?_, hsent⟩, ?_⟩
    · rcases List.mem_append.mp hm with hm | hm
      · exact Or.inl (List.eq_of_mem_replicate hm)
      · exact Or.inr (Or.inl (List.mem_singleton.mp hm))
    · exact ⟨k.succ_pos, hzero, fun j hj hlt => hgoing j hj (Nat.le_of_lt_succ hlt)⟩
    · exact congrArg Nat.succ hlength
  · rw [hnext]
    have hlength' : (remainder total burst (k + 1) :: rs).length = k + 1 :=
      congrArg Nat.succ hlength
    refine ⟨.outbound (k + 1) _ _ _ _ ?_, hlength'⟩
    refine .continue (k + 1) t0 t1 n _ _ k.succ_pos hlength' hsent fun j hj hle => ?_
    rcases Nat.le_succ_iff.mp hle with hle | rfl
    · exact hgoing j hj hle
    · exact hmore

theorem Course.echoed (htotal : s.sender.totalMessages = total) (hb : s.sender.burstSize = burst)
    {k : ℕ} {e : Echo} {c : Counts} {rs : List Int32}
    (hg : s.glance = ⟨⟨.active, [], [], [e], c⟩, true, true, rs⟩)
    (token : Token total burst k e c rs) (now : ℤ) :
    Course total burst ({ s with toSender := [] }.senderHandles now (.echo e)).glance ∧
      ({ s with toSender := [] }.senderHandles now (.echo e)).glance.remainings.length = k + 1 := by
  obtain ⟨hv, hsender, hreceiver, hrs⟩ := glance_eq_iff.mp hg
  obtain ⟨hr, hself, hrecv, hsend, hcounts⟩ := view_eq_iff.mp hv
  cases token with
  | start c starts =>
    have hsince : (c.record (.handled (.echo .start))).since = payloads total burst 0 := rfl
    rw [senderHandles_start (s := { s with toSender := [] }) hr]
    refine Course.round _ 0 (c.record (.handled (.echo .start))) [] s.sender.totalMessages _ _ _ hb
      htotal ?_ rfl hsince (by omega)
    exact glance_eq_iff.mpr
      ⟨view_eq_iff.mpr ⟨hr, hself, hrecv, rfl, by rw [counts_cons, hcounts]⟩, hsender, hreceiver,
        hrs⟩
  | «continue» k t0 t1 n c rs pos length since going =>
    rw [senderHandles_continue (s := { s with toSender := [] }) hr]
    refine Course.round _ k c rs _ _ _ _ hb rfl ?_ length since going
    exact glance_eq_iff.mpr
      ⟨view_eq_iff.mpr ⟨hr, hself, hrecv, rfl, by rw [counts_cons, hcounts]; rfl⟩, hsender,
        hreceiver, hrs⟩

theorem Finished.glance (h : Finished total burst s.glance) (ht : t.sender.receive = .active)
    (hself : t.toSelf = [])
    (hreceiver : ∀ m ∈ t.toReceiver, m ∈ s.toReceiver ∨ m = .shutdown)
    (hsender : ∀ e ∈ t.toSender, e ∈ s.toSender ∨ .echo e ∈ s.toReceiver)
    (hremainings : remainings t.history = remainings s.history)
    (hsince : (counts t.history).since = (counts s.history).since) :
    Finished total burst t.glance where
  receive := ht
  toSelf := hself
  toReceiver m hm := (hreceiver m hm).elim (h.toReceiver m) fun heq => Or.inr (Or.inr heq)
  toSender e he := by
    rcases hsender e he with he | he
    · exact h.toSender e he
    · simpa using h.toReceiver _ he
  zero := by
    change 0 ∈ remainings t.history
    rw [hremainings]
    exact h.zero
  last := by
    obtain ⟨k, hk, hs⟩ := h.last
    exact ⟨k, hk, hsince.trans hs⟩

theorem Sound.echoed (hs : Sound total burst s) {e : Echo} {rest : List Echo}
    (h : s.toSender = e :: rest) (now : ℤ) :
    Sound total burst ({ s with toSender := rest }.senderHandles now (.echo e)) := by
  refine .handles now _ hs.totalMessages hs.burstSize ?_
  have hcourse := hs.course
  generalize hg : s.glance = g at hcourse
  cases hcourse with
  | inbound k e' c rs token =>
    have hsend := (view_eq_iff.mp (glance_eq_iff.mp hg).1).2.2.2.1
    obtain ⟨rfl, rfl⟩ := List.cons.inj (hsend.symm.trans h)
    exact (Course.echoed hs.totalMessages hs.burstSize hg token now).1
  | finished _ hf =>
    subst hg
    have hr : s.sender.receive = .active := hf.receive
    have hself : s.toSelf = [] := hf.toSelf
    have he : e = .done := hf.toSender e (by rw [System.glance, System.view, h]; simp)
    subst he
    rw [senderHandles_done (s := { s with toSender := rest }) hr]
    refine .finished _ (hf.glance hr hself (fun m hm => ?_) (fun e he => Or.inl ?_) rfl ?_)
    · simpa using hm
    · rw [h]
      exact List.mem_cons_of_mem _ he
    · rw [counts_cons, counts_cons]
      rfl
  | warming c starts => cases (view_eq_iff.mp (glance_eq_iff.mp hg).1).2.2.2.1.symm.trans h
  | identifying c starts => cases (view_eq_iff.mp (glance_eq_iff.mp hg).1).2.2.2.1.symm.trans h
  | outbound k j e c rs token => cases (view_eq_iff.mp (glance_eq_iff.mp hg).1).2.2.2.1.symm.trans h

theorem Token.received {k : ℕ} {e : Echo} {c : Counts} {rs : List Int32}
    (h : Token total burst k e c rs) (m : Message) :
    Token total burst k e (c.record (.received m)) rs := by
  cases h with
  | start c starts =>
    refine .start _ ?_
    cases m <;> exact starts
  | «continue» k t0 t1 n c rs pos length since going =>
    refine .continue k t0 t1 n _ rs pos length ?_ going
    cases m <;> exact since

theorem Finished.receiver (hf : Finished total burst s.glance) {m : Message} {rest : List Message}
    (h : s.toReceiver = m :: rest) :
    Finished total burst ({ s with toReceiver := rest }.receiverHandles m).glance := by
  refine hf.glance ?_ ?_ (fun m' hm' => Or.inl ?_) (fun e he => ?_) ?_ ?_
  · rw [receiverHandles_sender]
    exact hf.receive
  · rw [receiverHandles_toSelf]
    exact hf.toSelf
  · rw [receiverHandles_toReceiver] at hm'
    rw [h]
    exact List.mem_cons_of_mem m hm'
  · cases m with
    | echo e' =>
      rcases List.mem_append.mp he with he | he
      · exact Or.inl he
      · rw [h, List.mem_singleton.mp he]
        exact Or.inr (List.mem_cons_self ..)
    | _ => exact Or.inl he
  · rw [receiverHandles_history]
    rfl
  · rw [receiverHandles_history, counts_cons]
    cases m <;> rfl

theorem Sound.receiver (hs : Sound total burst s) {m : Message} {rest : List Message}
    (h : s.toReceiver = m :: rest) :
    Sound total burst ({ s with toReceiver := rest }.receiverHandles m) := by
  refine ⟨by rw [receiverHandles_sender, hs.totalMessages],
    by rw [receiverHandles_sender, hs.burstSize], ?_⟩
  have hcourse := hs.course
  generalize hg : s.glance = g at hcourse
  cases hcourse with
  | outbound k j e c rs token =>
    obtain ⟨hv, hsender, hreceiver, hrs⟩ := glance_eq_iff.mp hg
    obtain ⟨hr, hself, hrecv, hsend, hcounts⟩ := view_eq_iff.mp hv
    cases j with
    | succ j =>
      obtain ⟨rfl, rfl⟩ := List.cons.inj (hrecv.symm.trans h)
      have hcourse := Course.outbound k j e _ rs (token.received .payload)
      refine cast (congrArg (Course total burst) (Eq.symm ?_)) hcourse
      exact glance_eq_iff.mpr
        ⟨view_eq_iff.mpr ⟨hr, hself, rfl, hsend, by
          rw [← hcounts]; exact counts_cons _ _⟩, hsender, hreceiver, hrs⟩
    | zero =>
      obtain ⟨rfl, rfl⟩ := List.cons.inj (hrecv.symm.trans h)
      have hcourse := Course.inbound k e _ rs (token.received (.echo e))
      refine cast (congrArg (Course total burst) (Eq.symm ?_)) hcourse
      refine glance_eq_iff.mpr
        ⟨view_eq_iff.mpr ⟨hr, hself, rfl, ?_, by
          rw [← hcounts]; exact counts_cons _ _⟩, hsender, hreceiver, hrs⟩
      simp [System.receiverHandles, hsend]
  | finished _ hf =>
    subst hg
    exact .finished _ (hf.receiver h)
  | warming c starts => cases (view_eq_iff.mp (glance_eq_iff.mp hg).1).2.2.1.symm.trans h
  | identifying c starts => cases (view_eq_iff.mp (glance_eq_iff.mp hg).1).2.2.1.symm.trans h
  | inbound k e c rs token => cases (view_eq_iff.mp (glance_eq_iff.mp hg).1).2.2.1.symm.trans h

theorem Sound.watched (hs : Sound total burst s) (hdown : s.receiverUp = false) (now : ℤ) :
    Sound total burst (s.senderHandles now .terminated) := by
  refine .handles now _ hs.totalMessages hs.burstSize ?_
  have hcourse := hs.course
  generalize hg : s.glance = g at hcourse
  cases hcourse with
  | finished _ hf =>
    subst hg
    have hr : s.sender.receive = .active := hf.receive
    rw [senderHandles_terminated hr]
    refine .finished _
      (hf.glance hr hf.toSelf (fun m hm => Or.inl hm) (fun e he => Or.inl he) rfl ?_)
    rw [counts_cons]
    rfl
  | identifying c starts => cases (glance_eq_iff.mp hg).2.2.1.symm.trans hdown
  | warming c starts => cases (glance_eq_iff.mp hg).2.2.1.symm.trans hdown
  | outbound k j e c rs token => cases (glance_eq_iff.mp hg).2.2.1.symm.trans hdown
  | inbound k e c rs token => cases (glance_eq_iff.mp hg).2.2.1.symm.trans hdown

theorem receiver_down_of_watched (h : step s .watched = some t) : s.receiverUp = false := by
  simp only [step] at h
  split at h
  next hdown => exact hdown.2
  next => cases h

theorem sound_initial : Sound total burst (.initial total burst) :=
  ⟨rfl, rfl, .identifying .zero rfl⟩

theorem sound_step (s : System) (e : Label) (t : System) (hs : Sound total burst s)
    (h : step s e = some t) : Sound total burst t := by
  cases steps_of_step h with
  | identity found => exact hs.identity found 0
  | timeout => exact hs.environment (Or.inl rfl) 0
  | watched => exact hs.watched (receiver_down_of_watched h) 0
  | selfNext now m rest hself => exact hs.warmup hself now
  | senderNext now e rest hsend => exact hs.echoed hsend now
  | receiverNext m rest hrecv => exact hs.receiver hrecv

theorem sound_reachable (h : Reaches total burst s) : Sound total burst s :=
  h.invariant sound_initial fun s e t _ hs ht => sound_step s e t hs ht

/-! ## The history grows -/

theorem mem_history_foldl (effects : List Effect) (s : System) (ev : Event) :
    ev ∈ (effects.foldl System.perform s).history ↔
      ev ∈ s.history ∨ ∃ m, .tell m ∈ effects ∧ ev = .sent m := by
  induction effects generalizing s with
  | nil => simp
  | cons effect effects ih =>
    rw [List.foldl_cons, ih]
    cases effect with
    | tell m =>
      simp only [System.perform, List.mem_cons, Effect.tell.injEq]
      constructor
      · rintro ((rfl | h) | ⟨m', hm', rfl⟩)
        · exact Or.inr ⟨m, Or.inl rfl, rfl⟩
        · exact Or.inl h
        · exact Or.inr ⟨m', Or.inr hm', rfl⟩
      · rintro (h | ⟨m', rfl | hm', rfl⟩)
        · exact Or.inl (Or.inr h)
        · exact Or.inl (Or.inl rfl)
        · exact Or.inr ⟨m', hm', rfl⟩
    | _ => simp [System.perform]

theorem mem_history_step {e : Label} (h : step s e = some t) {ev : Event} (hev : ev ∈ s.history) :
    ev ∈ t.history := by
  have hhandled : ∀ (u : System) (now : ℤ) (m : Message), u.history = s.history →
      ev ∈ (u.senderHandles now m).history := by
    intro u now m hu
    refine (mem_history_foldl _ _ ev).mpr (Or.inl ?_)
    exact List.mem_cons_of_mem _ (hu ▸ hev)
  cases steps_of_step h with
  | identity found => exact hhandled s 0 _ rfl
  | timeout => exact hhandled s 0 _ rfl
  | watched => exact hhandled s 0 _ rfl
  | selfNext now m rest hself => exact hhandled _ now m rfl
  | senderNext now e rest hsend => exact hhandled _ now _ rfl
  | receiverNext m rest hrecv => cases m <;> exact List.mem_cons_of_mem _ hev

end Steps

end SbtExample.Benchmark
