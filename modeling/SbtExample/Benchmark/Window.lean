import SbtExample.Benchmark.Runs

/-! # The throughput window

`n` of a `Continue` counts the payloads since the burst for which its start time was recorded. It is
only ever increased by the nominal burst size; this is exact as the one short batch is the last one,
and no `Continue` follows it.
-/
set_option autoImplicit false
set_option maxHeartbeats 250000

namespace SbtExample.Benchmark
open MachineInt

/-- The payloads in a history since the handler that recorded `t0`, its burst included: every later
handler received a `Continue` with that start time. -/
def window (t0 : ℤ) : List Event → ℕ
  | [] => 0
  | .sent .payload :: h => window t0 h + 1
  | .handled (.echo .start) :: _ => 0
  | .handled (.echo (.continue _ t0' _ _)) :: h => if t0' = t0 then window t0 h else 0
  | _ :: h => window t0 h

/-- What the fields of a `Continue` that is sent after the history `h` say. -/
structure Accounted (totalMessages burstSize : Int32) (h : List Event) (remaining : Int32)
    (t0 t1 : ℤ) (n : Int32) : Prop where
  remaining_pos : 0 < remaining.toInt
  remaining_lt : remaining.toInt < totalMessages.toInt
  ordered : t0 ≤ t1
  multiple : ∃ k : ℕ, 0 < k ∧ n.toInt = k * burstSize.toInt
  counted : n.toInt = window t0 h
  bounded : n.toInt ≤ totalMessages.toInt - remaining.toInt

def Label.reading : Label → Option ℤ
  | .senderNext now => some now
  | _ => none

/-- The clock as the handlers of `Start`, `Continue` and `Done` read it. -/
def readings (es : List Label) : List ℤ := es.filterMap Label.reading

theorem readings_concat (es : List Label) (e : Label) :
    readings (es ++ [e]) = readings es ++ e.reading.toList := by
  rw [readings, List.filterMap_append]
  cases hreading : e.reading <;> simp [readings, hreading]

section Window
variable {total burst : Int32} {past : List ℤ} {s t : System} {h : List Event}

/-! ## Windows of longer histories -/

theorem window_payloads (t0 : ℤ) (k : ℕ) (h : List Event) :
    window t0 (List.replicate k (.sent .payload) ++ h) = k + window t0 h := by
  induction k with
  | zero => rw [List.replicate_zero, List.nil_append, Nat.zero_add]
  | succ k ih =>
    rw [List.replicate_succ, List.cons_append, window, ih]
    omega

/-- The event neither belongs to a burst nor ends a window. -/
def Event.isQuiet : Event → Bool
  | .sent .payload | .handled (.echo .start) | .handled (.echo (.continue _ _ _ _)) => false
  | _ => true

theorem window_quiet (t0 : ℤ) {e : Event} (he : e.isQuiet = true) (h : List Event) :
    window t0 (e :: h) = window t0 h := by
  cases e with
  | handled m =>
    cases m with
    | echo m => cases m <;> first | rfl | cases he
    | _ => rfl
  | sent m =>
    cases m with
    | payload => cases he
    | _ => rfl
  | received m => rfl

theorem Accounted.congr {remaining : Int32} {t0 t1 : ℤ} {n : Int32} {h' : List Event}
    (ha : Accounted total burst h remaining t0 t1 n) (hw : window t0 h' = window t0 h) :
    Accounted total burst h' remaining t0 t1 n :=
  { ha with counted := ha.counted.trans (by rw [hw]) }

/-! ## The invariant -/

/-- Every `Continue` in the history, and the one that is on its way. -/
structure Windows (total burst : Int32) (past : List ℤ) (s : System) : Prop where
  emitted : ∀ remaining t0 t1 n h, .sent (.echo (.continue remaining t0 t1 n)) :: h <:+ s.history →
    Accounted total burst h remaining t0 t1 n
  token : ∀ remaining t0 t1 n, .echo (.continue remaining t0 t1 n) ∈ s.controls →
    Accounted total burst s.history remaining t0 t1 n ∧ t1 ∈ past

theorem windows_initial : Windows total burst [] (.initial total burst) where
  emitted _ _ _ _ _ h := nomatch List.eq_nil_of_suffix_nil h
  token _ _ _ _ h := nomatch h

theorem Windows.mono (hs : Windows total burst past s) {past' : List ℤ}
    (hpast : ∀ r ∈ past, r ∈ past') : Windows total burst past' s where
  emitted := hs.emitted
  token remaining t0 t1 n hmem := (hs.token remaining t0 t1 n hmem).imp_right (hpast t1)

theorem suffix_of_not_mem {e : Event} {new h h' : List Event} (he : e ∉ new)
    (hs : e :: h <:+ new ++ h') : e :: h <:+ h' := by
  induction new with
  | nil => exact hs
  | cons e' new ih =>
    rw [List.mem_cons, not_or] at he
    obtain ⟨hne, hnew⟩ := he
    rcases List.suffix_cons_iff.mp hs with heq | hs
    · exact absurd (List.cons.inj heq).1 hne
    · exact ih hnew hs

theorem window_quiets (t0 : ℤ) {new : List Event} (hnew : ∀ e ∈ new, e.isQuiet = true)
    (h : List Event) : window t0 (new ++ h) = window t0 h := by
  induction new with
  | nil => rfl
  | cons e new ih =>
    obtain ⟨he, hnew⟩ := List.forall_mem_cons.mp hnew
    rw [List.cons_append, window_quiet t0 he, ih hnew]

/-- A step that sends no `Continue` and leaves the window of the one on its way as it is. -/
theorem Windows.record (hs : Windows total burst past s) {new : List Event}
    (hhistory : t.history = new ++ s.history)
    (hunsent : ∀ remaining t0 t1 n, .sent (.echo (.continue remaining t0 t1 n)) ∉ new)
    (hcontrols : ∀ remaining t0 t1 n, .echo (.continue remaining t0 t1 n) ∈ t.controls →
      (∀ e ∈ new, e.isQuiet = true) ∧ .echo (.continue remaining t0 t1 n) ∈ s.controls) :
    Windows total burst past t where
  emitted remaining t0 t1 n h hsuffix := by
    rw [hhistory] at hsuffix
    exact hs.emitted _ _ _ _ h (suffix_of_not_mem (hunsent remaining t0 t1 n) hsuffix)
  token remaining t0 t1 n hmem := by
    obtain ⟨hquiet, hmem⟩ := hcontrols _ _ _ _ hmem
    obtain ⟨ha, hpast⟩ := hs.token _ _ _ _ hmem
    exact ⟨ha.congr (by rw [hhistory, window_quiets t0 hquiet]), hpast⟩

/-- A step that handles the control message `e` and sends a burst and the control message `next`. -/
theorem Windows.emit (hs : Windows total burst past s) {past' : List ℤ} {e next : Echo} {k : ℕ}
    (hhistory : t.history = .sent (.echo next) ::
      (List.replicate k (.sent .payload) ++ .handled (.echo e) :: s.history))
    (hcontrols : ∀ c, .echo c ∈ t.controls → c = next)
    (hnext : ∀ remaining t0 t1 n, next = .continue remaining t0 t1 n →
      Accounted total burst (List.replicate k (.sent .payload) ++ .handled (.echo e) :: s.history)
        remaining t0 t1 n ∧ t1 ∈ past') :
    Windows total burst past' t where
  emitted remaining t0 t1 n h hsuffix := by
    rw [hhistory] at hsuffix
    rcases List.suffix_cons_iff.mp hsuffix with heq | hsuffix
    · obtain ⟨hhead, rfl⟩ := List.cons.inj heq
      cases hhead
      exact (hnext _ _ _ _ rfl).1
    · rw [List.append_cons] at hsuffix
      refine hs.emitted _ _ _ _ h (suffix_of_not_mem ?_ hsuffix)
      simp
  token remaining t0 t1 n hmem := by
    obtain ⟨ha, hpast⟩ := hnext _ _ _ _ (hcontrols _ hmem).symm
    exact ⟨ha.congr (by rw [hhistory, window_quiet t0 rfl]), hpast⟩

/-! ## The steps -/

theorem mem_controls {c : Echo} : .echo c ∈ s.controls ↔
    .echo c ∈ s.toSelf ∨ .echo c ∈ s.toReceiver ∨ c ∈ s.toSender := by
  simp [System.controls, Message.isControl]

/-- Retries, late answers and the death of the receiver. -/
theorem Windows.environment (hs : Windows total burst past s) {m : Message}
    (hm : m = .receiveTimeout ∨ m = .terminated ∨ ∃ found, m = .actorIdentity found) (now : ℤ) :
    Windows total burst past (s.senderHandles now m) := by
  have hhandled : (s.senderHandles now m).history = [.handled m] ++ s.history ∧
      (s.senderHandles now m).toReceiver = s.toReceiver ∧
      (s.senderHandles now m).toSender = s.toSender ∧
      ((s.senderHandles now m).toSelf = s.toSelf ∨
        (s.senderHandles now m).toSelf = s.toSelf ++ [.warmup]) := by
    unfold System.senderHandles Sender.handle
    cases s.sender.receive with
    | identifying =>
      rcases hm with rfl | rfl | ⟨found, rfl⟩
      · exact ⟨rfl, rfl, rfl, Or.inl rfl⟩
      · exact ⟨rfl, rfl, rfl, Or.inl rfl⟩
      · cases found with
        | false => exact ⟨rfl, rfl, rfl, Or.inl rfl⟩
        | true => exact ⟨rfl, rfl, rfl, Or.inr rfl⟩
    | active =>
      rcases hm with rfl | rfl | ⟨found, rfl⟩
      · exact ⟨rfl, rfl, rfl, Or.inl rfl⟩
      · exact ⟨rfl, rfl, rfl, Or.inl rfl⟩
      · exact ⟨rfl, rfl, rfl, Or.inl rfl⟩
  obtain ⟨hhistory, hrecv, hsend, hself⟩ := hhandled
  refine hs.record hhistory (by simp) fun remaining t0 t1 n hmem => ⟨?_, ?_⟩
  · rcases hm with rfl | rfl | ⟨found, rfl⟩ <;> simp [Event.isQuiet]
  · rw [mem_controls, hrecv, hsend] at hmem
    rw [mem_controls]
    refine hmem.imp_left fun hmem => ?_
    rcases hself with hself | hself
    · rwa [hself] at hmem
    · rw [hself] at hmem
      simpa using hmem

theorem Windows.warmup (hs : Windows total burst past s) (hi : Inv total burst s) {m : Message}
    {rest : List Message} (h : s.toSelf = m :: rest) (now : ℤ) :
    Windows total burst past ({ s with toSelf := rest }.senderHandles now m) := by
  obtain ⟨⟨rfl, rfl⟩, hr, hrecv, hsend, -⟩ := hi.warming h
  have hbatch := sendBatch_eq s.sender s.sender.burstSize
  generalize (min s.sender.burstSize.toInt s.sender.burstSize.toInt).toNat = k at hbatch
  have hhandled : { s with toSelf := [] }.senderHandles now .warmup =
      { s with
        toSelf := []
        toReceiver := s.toReceiver ++ List.replicate k .payload ++ [.echo .start]
        history := .sent (.echo .start) ::
          (List.replicate k (.sent .payload) ++ .handled .warmup :: s.history) } := by
    rw [senderHandles_warmup (s := { s with toSelf := [] }) hr]
    simp only [hbatch]
    rw [foldl_batch]
  have hhistory : ({ s with toSelf := [] }.senderHandles now .warmup).history =
      .sent (.echo .start) :: (List.replicate k (.sent .payload) ++ [.handled .warmup]) ++
        s.history := by
    rw [hhandled]
    simp
  rw [hhandled] at hhistory ⊢
  refine hs.record hhistory (by simp) fun remaining t0 t1 n hmem => ?_
  simp [mem_controls, hrecv, hsend] at hmem

theorem Windows.receiver (hs : Windows total burst past s) {m : Message} {rest : List Message}
    (h : s.toReceiver = m :: rest) :
    Windows total burst past ({ s with toReceiver := rest }.receiverHandles m) := by
  have hhistory : ({ s with toReceiver := rest }.receiverHandles m).history =
      [.received m] ++ s.history := receiverHandles_history _ m
  refine hs.record hhistory (by simp) fun remaining t0 t1 n hmem => ⟨by simp [Event.isQuiet], ?_⟩
  rw [mem_controls] at hmem ⊢
  rw [h, List.mem_cons]
  cases m with
  | echo e =>
    simp only [System.receiverHandles, List.mem_append, List.mem_singleton] at hmem
    rcases hmem with hmem | hmem | hmem | rfl
    · exact Or.inl hmem
    · exact Or.inr (Or.inl (Or.inr hmem))
    · exact Or.inr (Or.inr hmem)
    · exact Or.inr (Or.inl (Or.inl rfl))
  | _ => exact hmem.imp_right (Or.imp_left Or.inr)

/-! ## Bursts -/

/-- A batch that leaves something behind is a whole burst. -/
theorem whole_burst {sender : Sender} {remaining : Int32} (hb : sender.burstSize = burst)
    (hburst : 1 ≤ burst.toInt) (hr : 0 ≤ remaining.toInt)
    (hmore : sender.afterBatch remaining ≠ 0) :
    min remaining.toInt burst.toInt = burst.toInt ∧ 0 < (sender.afterBatch remaining).toInt ∧
      (sender.afterBatch remaining).toInt = remaining.toInt - burst.toInt := by
  have hafter := afterBatch_toInt sender remaining hr (by rw [hb]; exact hburst)
  have hne : (sender.afterBatch remaining).toInt ≠ 0 := fun h =>
    hmore (eq_of_toInt (by rw [h, Int32.toInt_zero]))
  rw [hb] at hafter
  omega

theorem Accounted.first {remaining after : Int32} {now : ℤ} (hw : Benchmark.window now h = 0)
    (hburst : 1 ≤ burst.toInt) (hpos : 0 < after.toInt)
    (hafter : after.toInt = remaining.toInt - burst.toInt) (hle : remaining.toInt ≤ total.toInt) :
    Accounted total burst (List.replicate burst.toInt.toNat (.sent .payload) ++ h) after now now
      burst where
  remaining_pos := hpos
  remaining_lt := by omega
  ordered := le_rfl
  multiple := ⟨1, Nat.one_pos, by omega⟩
  counted := by rw [window_payloads, hw]; omega
  bounded := by omega

theorem Accounted.next {remaining after n : Int32} {t0 t1 now : ℤ} {h' : List Event}
    (ha : Accounted total burst h remaining t0 t1 n)
    (hw : Benchmark.window t0 h' = Benchmark.window t0 h) (hnow : t1 ≤ now)
    (hburst : 1 ≤ burst.toInt) (hpos : 0 < after.toInt)
    (hafter : after.toInt = remaining.toInt - burst.toInt) :
    Accounted total burst (List.replicate burst.toInt.toNat (.sent .payload) ++ h') after t0 now
      (n + burst) := by
  have hbounded := ha.bounded
  have hlt := ha.remaining_lt
  have htotal := total.toInt_lt
  obtain ⟨k, hk, hmultiple⟩ := ha.multiple
  have hn : 0 ≤ n.toInt := by rw [ha.counted]; omega
  have hsum : (n + burst).toInt = n.toInt + burst.toInt := toInt_add (by omega) (by omega)
  exact
    { remaining_pos := hpos
      remaining_lt := by omega
      ordered := ha.ordered.trans hnow
      multiple := ⟨k + 1, k.succ_pos, by rw [hsum, hmultiple]; push_cast; ring⟩
      counted := by rw [window_payloads, hw, hsum, ha.counted]; omega
      bounded := by omega }

theorem Windows.burst_sent (hs : Windows total burst past s) {past' : List ℤ} {u : System}
    {e : Echo} {remaining n : Int32} {t0 t1 : ℤ} (hb : u.sender.burstSize = burst)
    (hempty : u.toSelf = [] ∧ u.toReceiver = [] ∧ u.toSender = [])
    (hhistory : u.history = .handled (.echo e) :: s.history)
    (hnext : u.sender.afterBatch remaining ≠ 0 →
      Accounted total burst
        (List.replicate (min remaining.toInt burst.toInt).toNat (.sent .payload) ++
          .handled (.echo e) :: s.history) (u.sender.afterBatch remaining) t0 t1 n ∧ t1 ∈ past') :
    Windows total burst past' ((u.sender.sendBatch remaining ++ [Effect.tell
      (.echo (nextEcho (u.sender.afterBatch remaining) t0 t1 n))]).foldl System.perform u) := by
  obtain ⟨hself, hrecv, hsend⟩ := hempty
  rw [sendBatch_eq, hb, foldl_batch]
  refine hs.emit (e := e) (by rw [hhistory]) (fun c hc => ?_) fun remaining' t0' t1' n' hc => ?_
  · simpa [mem_controls, hself, hrecv, hsend] using hc
  · rcases nextEcho_cases (u.sender.afterBatch remaining) t0 t1 n with ⟨-, hdone⟩ | ⟨hmore, hcont⟩
    · cases hdone.symm.trans hc
    · cases hcont.symm.trans hc
      exact hnext hmore

theorem Windows.start (hs : Windows total burst past s) (hi : Inv total burst s)
    (htotal : 0 ≤ total.toInt) (hburst : 1 ≤ burst.toInt)
    (hview : s.sender.receive = .active ∧ s.toSelf = [] ∧ s.toReceiver = []) (now : ℤ) :
    Windows total burst (past ++ [now])
      (({ s with toSender := [] } : System).senderHandles now (.echo .start)) := by
  obtain ⟨hr, hself, hrecv⟩ := hview
  have hremaining : s.sender.totalMessages.toInt = total.toInt := by rw [hi.total]
  have hnonneg : 0 ≤ s.sender.totalMessages.toInt := by omega
  rw [senderHandles_start (s := { s with toSender := [] }) hr]
  refine hs.burst_sent (e := .start)
    (u := { s with
      sender := { s.sender with startTime := now }
      toSender := []
      printed := s.printed ++ [.starting]
      history := .handled (.echo .start) :: s.history })
    hi.burst ⟨hself, hrecv, rfl⟩ rfl fun hmore => ?_
  obtain ⟨hwhole, hpos, hafter⟩ := whole_burst hi.burst hburst hnonneg hmore
  rw [hwhole, hi.burst]
  exact ⟨.first rfl hburst hpos hafter hremaining.le, List.mem_concat_self⟩

theorem Windows.done (hs : Windows total burst past s)
    (hview : s.sender.receive = .active ∧ s.toSelf = [] ∧ s.toReceiver = []) (now : ℤ) :
    Windows total burst past
      (({ s with toSender := [] } : System).senderHandles now (.echo .done)) := by
  obtain ⟨hr, hself, hrecv⟩ := hview
  rw [senderHandles_done (s := { s with toSender := [] }) hr]
  have hrecord : (.sent .shutdown :: .handled (.echo .done) :: s.history : List Event) =
      [.sent .shutdown, .handled (.echo .done)] ++ s.history := rfl
  refine hs.record hrecord (by simp) fun remaining t0 t1 n hmem => ⟨by simp [Event.isQuiet], ?_⟩
  simp [mem_controls, hself, hrecv] at hmem

/-- The window begins anew, or goes on by one burst. -/
theorem Windows.continued (hs : Windows total burst past s) (hi : Inv total burst s)
    (hburst : 1 ≤ burst.toInt)
    (hview : s.sender.receive = .active ∧ s.toSelf = [] ∧ s.toReceiver = []) {remaining : Int32}
    {t0 t1 : ℤ} {n : Int32} (hsend : s.toSender = [.continue remaining t0 t1 n]) {now : ℤ}
    (hnow : ∀ r ∈ past, r ≤ now) :
    Windows total burst (past ++ [now]) (({ s with toSender := [] } : System).senderHandles now
      (.echo (.continue remaining t0 t1 n))) := by
  obtain ⟨hr, hself, hrecv⟩ := hview
  obtain ⟨ha, hpast⟩ := hs.token remaining t0 t1 n
    (mem_controls.mpr (Or.inr (Or.inr (by rw [hsend]; exact List.mem_singleton_self _))))
  have hremaining := ha.remaining_pos
  rw [senderHandles_continue (s := { s with toSender := [] }) hr]
  refine hs.burst_sent (e := .continue remaining t0 t1 n) hi.burst ⟨hself, hrecv, rfl⟩ rfl
    fun hmore => ?_
  obtain ⟨hwhole, hpos, hafter⟩ := whole_burst hi.burst hburst hremaining.le hmore
  rw [hwhole, hi.burst]
  refine ⟨?_, List.mem_concat_self⟩
  change Accounted total burst (_ ++ .handled (.echo (.continue remaining t0 t1 n)) :: s.history)
    (s.sender.afterBatch remaining) (if 500 ≤ toMillis (now - t0) then now else t0) now
    (if 500 ≤ toMillis (now - t0) then burst else n + burst)
  by_cases hduration : 500 ≤ toMillis (now - t0)
  · rw [if_pos hduration, if_pos hduration]
    -- the old start time lies half a second back, so that this handler begins a window
    have hne : t0 ≠ now := by
      rintro rfl
      simp [toMillis] at hduration
    exact .first (if_neg hne) hburst hpos hafter ha.remaining_lt.le
  · rw [if_neg hduration, if_neg hduration]
    exact ha.next (if_pos rfl) (hnow t1 hpast) hburst hpos hafter

theorem Windows.echoed (hs : Windows total burst past s) (hi : Inv total burst s)
    (htotal : 0 ≤ total.toInt) (hburst : 1 ≤ burst.toInt) {e : Echo} {rest : List Echo}
    (h : s.toSender = e :: rest) {now : ℤ} (hnow : ∀ r ∈ past, r ≤ now) :
    Windows total burst (past ++ [now])
      ({ s with toSender := rest }.senderHandles now (.echo e)) := by
  obtain ⟨rfl, -, -, hview⟩ := hi.inbound h
  cases e with
  | start => exact hs.start hi htotal hburst hview now
  | done => exact (hs.done hview now).mono fun r hr => List.mem_append_left _ hr
  | «continue» remaining t0 t1 n => exact hs.continued hi hburst hview h hnow

/-! ## Runs -/

theorem windows_step (htotal : 0 ≤ total.toInt) (hburst : 1 ≤ burst.toInt) (s : System) (e : Label)
    (t : System) (hi : Inv total burst s) (hs : Windows total burst past s)
    (hclock : ∀ now, e.reading = some now → ∀ r ∈ past, r ≤ now) (h : step s e = some t) :
    Windows total burst (past ++ e.reading.toList) t := by
  have hkeep : ∀ r ∈ past, r ∈ past ++ e.reading.toList := fun r hr => List.mem_append_left _ hr
  cases steps_of_step h with
  | identity found => exact (hs.environment (Or.inr (Or.inr ⟨found, rfl⟩)) 0).mono hkeep
  | timeout => exact (hs.environment (Or.inl rfl) 0).mono hkeep
  | watched => exact (hs.environment (Or.inr (Or.inl rfl)) 0).mono hkeep
  | selfNext now m rest hself => exact (hs.warmup hi hself now).mono hkeep
  | senderNext now e rest hsend => exact hs.echoed hi htotal hburst hsend (hclock now rfl)
  | receiverNext m rest hrecv => exact (hs.receiver hrecv).mono hkeep

theorem windows_of_run (htotal : 0 ≤ total.toInt) (hburst : 1 ≤ burst.toInt) (es : List Label)
    (s : System) (h : Transition.run step (.initial total burst) es = some s)
    (hclock : (readings es).Pairwise (· ≤ ·)) : Windows total burst (readings es) s := by
  refine Transition.run_induction
    (P := fun es s => (readings es).Pairwise (· ≤ ·) → Windows total burst (readings es) s)
    (fun _ => windows_initial) ?_ es s h hclock
  intro es s e t hr ih ht hclock
  rw [readings_concat] at hclock ⊢
  obtain ⟨hpast, -, hle⟩ := List.pairwise_append.mp hclock
  refine windows_step htotal hburst s e t (inv_reachable htotal hburst ⟨es, hr⟩) (ih hpast) ?_ ht
  intro now hnow r hr'
  exact hle r hr' now (by rw [hnow]; exact List.mem_singleton_self now)

/-- Every `Continue` ever sent, whatever the clock does as long as it never goes back. -/
theorem window_accounting (totalMessages burstSize : Int32) (htotal : 0 ≤ totalMessages)
    (hburst : 1 ≤ burstSize) (es : List Label) (s : System)
    (hrun : Transition.run step (.initial totalMessages burstSize) es = some s)
    (hclock : (readings es).Pairwise (· ≤ ·)) (remaining : Int32) (t0 t1 : ℤ) (n : Int32)
    (h : List Event) (hsent : .sent (.echo (.continue remaining t0 t1 n)) :: h <:+ s.history) :
    Accounted totalMessages burstSize h remaining t0 t1 n :=
  (windows_of_run (nonneg_iff.mp htotal) (one_le_iff.mp hburst) es s hrun hclock).emitted remaining
    t0 t1 n h hsent

end Window

/-- Five messages in bursts of two, up to the second `Continue`. -/
def fiveMessages : List Label :=
  [.identity true, .selfNext 0, .receiverNext, .receiverNext, .receiverNext, .senderNext 1,
    .receiverNext, .receiverNext, .receiverNext, .senderNext 5]

theorem window_accounting_five :
    ∃ s h, Transition.run step (.initial 5 2) fiveMessages = some s ∧
      s.history = .sent (.echo (.continue 1 1 5 4)) :: h ∧ Accounted 5 2 h 1 1 5 4 := by
  have hrun : (Transition.run step (.initial 5 2) fiveMessages).map (fun s => s.history.head?) =
      some (some (.sent (.echo (.continue 1 1 5 4)))) := by decide
  obtain ⟨s, hs, hhead⟩ := Option.map_eq_some_iff.mp hrun
  obtain ⟨h, hhistory⟩ := List.head?_eq_some_iff.mp hhead
  exact ⟨s, h, hs, hhistory, window_accounting 5 2 (by decide) (by decide) fiveMessages s hs
    (by decide) 1 1 5 4 h (hhistory ▸ List.suffix_refl _)⟩

end SbtExample.Benchmark
