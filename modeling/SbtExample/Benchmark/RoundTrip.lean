import SbtExample.Benchmark.Rounds
import SbtExample.Benchmark.Window

/-! # The reported round trip

`maxRoundTripMillis` is raised when a `Continue` comes back. The token of the last burst is `Done`,
whose handler prints the maximum of the bursts before.
-/
set_option autoImplicit false
set_option maxHeartbeats 250000

namespace SbtExample.Benchmark
open MachineInt

/-- One burst lies between two readings of the clock: the handler of the first sends it, and its
token is handled at the second. -/
def roundTrips (ts : List ℤ) : List ℤ :=
  List.zipWith (fun sent echoed => toMillis (echoed - sent)) ts ts.tail

def longest (millis : List ℤ) : ℤ := millis.foldl max 0

/-- The last of the bursts took no longer than an earlier one, or less than a millisecond. -/
def LastIsCovered (millis : List ℤ) : Prop :=
  ∃ earlier last, millis = earlier ++ [last] ∧ (last = 0 ∨ ∃ m ∈ earlier, last ≤ m)

/-! ## Maxima -/

theorem roundTrips_concat (ts : List ℤ) (t now : ℤ) :
    roundTrips (ts ++ [t, now]) = roundTrips (ts ++ [t]) ++ [toMillis (now - t)] := by
  induction ts with
  | nil => rfl
  | cons u ts ih =>
    cases ts with
    | nil => rfl
    | cons v ts => exact congrArg (toMillis (v - u) :: ·) ih

theorem longest_concat (millis : List ℤ) (m : ℤ) :
    longest (millis ++ [m]) = max (longest millis) m := by
  rw [longest, List.foldl_append]
  rfl

theorem longest_nonneg (millis : List ℤ) : 0 ≤ longest millis := by
  induction millis using List.reverseRecOn with
  | nil => exact le_rfl
  | append_singleton millis m ih =>
    rw [longest_concat]
    exact ih.trans (le_max_left ..)

theorem le_longest {millis : List ℤ} {m : ℤ} (h : m ∈ millis) : m ≤ longest millis := by
  induction millis using List.reverseRecOn with
  | nil => cases h
  | append_singleton millis m' ih =>
    rw [longest_concat]
    rcases List.mem_append.mp h with h | h
    · exact (ih h).trans (le_max_left ..)
    · rw [List.mem_singleton.mp h]
      exact le_max_right ..

theorem longest_mem {millis : List ℤ} (h : longest millis ≠ 0) : longest millis ∈ millis := by
  induction millis using List.reverseRecOn with
  | nil => exact absurd rfl h
  | append_singleton millis m ih =>
    rw [longest_concat] at h ⊢
    rcases max_choice (longest millis) m with hmax | hmax
    · rw [hmax] at h ⊢
      exact List.mem_append_left _ (ih h)
    · rw [hmax]
      exact List.mem_append_right _ (List.mem_singleton_self m)

/-- The maximum of the earlier bursts is that of all of them exactly when it covers the last. -/
theorem isGreatest_longest_iff {earlier : List ℤ} {last : ℤ} (hlast : 0 ≤ last) :
    IsGreatest {m | m ∈ earlier ++ [last]} (longest earlier) ↔
      LastIsCovered (earlier ++ [last]) := by
  have hcovered : LastIsCovered (earlier ++ [last]) ↔ last = 0 ∨ ∃ m ∈ earlier, last ≤ m := by
    constructor
    · rintro ⟨earlier', last', heq, h⟩
      obtain ⟨rfl, hlast'⟩ := List.append_inj' heq rfl
      cases hlast'
      exact h
    · exact fun h => ⟨earlier, last, rfl, h⟩
  rw [hcovered]
  constructor
  · rintro ⟨hmem, hupper⟩
    have hle : last ≤ longest earlier :=
      hupper (List.mem_append_right _ (List.mem_singleton_self _))
    by_cases hzero : longest earlier = 0
    · exact Or.inl (by omega)
    · exact Or.inr ⟨_, longest_mem hzero, hle⟩
  · intro h
    have hle : last ≤ longest earlier := by
      rcases h with rfl | ⟨m, hm, hle⟩
      · exact longest_nonneg earlier
      · exact hle.trans (le_longest hm)
    refine ⟨?_, fun m hm => ?_⟩
    · by_cases hzero : longest earlier = 0
      · have hlast' : longest earlier = last := by omega
        rw [hlast']
        exact List.mem_append_right _ (List.mem_singleton_self last)
      · exact List.mem_append_left _ (longest_mem hzero)
    · rcases List.mem_append.mp hm with hm | hm
      · exact le_longest hm
      · rw [List.mem_singleton.mp hm]
        exact hle

/-! ## The invariant -/

def Line.maximum? : Line → Option ℤ
  | .took _ maxRoundTripMillis => some maxRoundTripMillis
  | _ => none

/-- What the sender has printed when it handled `Done`. -/
def reported (lines : List Line) : List ℤ := lines.filterMap Line.maximum?

/-- What the round trips are read from. -/
structure Gauge where
  receive : Behavior
  controls : List Message
  maxRoundTripMillis : ℤ
  reported : List ℤ

def System.gauge (s : System) : Gauge :=
  ⟨s.sender.receive, s.controls, s.sender.maxRoundTripMillis, Benchmark.reported s.printed⟩

/-- `past` are the readings of the clock so far, the last one that of the burst on its way. -/
inductive Measured : List ℤ → Gauge → Prop
  | before (receive : Behavior) (controls : List Message)
      (h : controls = [] ∨ controls = [.warmup] ∨ controls = [.echo .start]) :
      Measured [] ⟨receive, controls, 0, []⟩
  | during (ts : List ℤ) (t1 t0 : ℤ) (remaining n : Int32) :
      Measured (ts ++ [t1]) ⟨.active, [.echo (.continue remaining t0 t1 n)],
        longest (roundTrips (ts ++ [t1])), []⟩
  | ending (ts : List ℤ) (t1 : ℤ) :
      Measured (ts ++ [t1]) ⟨.active, [.echo .done], longest (roundTrips (ts ++ [t1])), []⟩
  | ended (ts : List ℤ) (t1 now : ℤ) (controls : List Message)
      (h : controls = [.shutdown] ∨ controls = []) :
      Measured (ts ++ [t1, now]) ⟨.active, controls, longest (roundTrips (ts ++ [t1])),
        [longest (roundTrips (ts ++ [t1]))]⟩

section RoundTrip
variable {total burst : Int32} {past : List ℤ} {s t : System}

theorem gauge_eq_iff {receive : Behavior} {controls : List Message} {m : ℤ} {rs : List ℤ} :
    s.gauge = ⟨receive, controls, m, rs⟩ ↔ s.sender.receive = receive ∧ s.controls = controls ∧
      s.sender.maxRoundTripMillis = m ∧ reported s.printed = rs := by
  rw [System.gauge, Gauge.mk.injEq]

/-! ## The steps -/

theorem gauge_handles_environment {m : Message}
    (hm : m = .receiveTimeout ∨ m = .terminated ∨ m = .actorIdentity false ∨
      m = .actorIdentity true ∧ s.sender.receive = .active) (now : ℤ) :
    (s.senderHandles now m).gauge = s.gauge := by
  obtain ⟨up, lines, heq, -, hlines⟩ := senderHandles_environment hm now
  have hnone : reported lines = [] := by
    refine List.filterMap_eq_nil_iff.mpr fun line hline => ?_
    rcases hlines line hline with rfl | rfl <;> rfl
  have hreported : reported (s.printed ++ lines) = reported s.printed := by
    rw [reported, List.filterMap_append, ← reported, ← reported, hnone, List.append_nil]
  rw [heq]
  exact gauge_eq_iff.mpr ⟨rfl, rfl, rfl, hreported⟩

theorem Measured.identity (hi : Inv total burst s) (hs : Measured past s.gauge) (found : Bool)
    (now : ℤ) : Measured past (s.senderHandles now (.actorIdentity found)).gauge := by
  cases found with
  | false =>
    rw [gauge_handles_environment (by simp) now]
    exact hs
  | true =>
    cases hr : s.sender.receive with
    | active =>
      rw [gauge_handles_environment (by simp [hr]) now]
      exact hs
    | identifying =>
      obtain ⟨hself, hrecv, hsend, -⟩ := hi.unidentified hr
      generalize hg : s.gauge = g at hs
      cases hs with
      | before receive controls h =>
        obtain ⟨-, -, hmax, hreported⟩ := gauge_eq_iff.mp hg
        rw [senderHandles_found hr]
        have hbefore : Measured [] ⟨.active, [.warmup], 0, []⟩ := .before _ _ (Or.inr (Or.inl rfl))
        refine cast (congrArg (Measured _) (Eq.symm ?_)) hbefore
        refine gauge_eq_iff.mpr ⟨rfl, ?_, hmax, hreported⟩
        simp [System.controls, hself, hrecv, hsend, Message.isControl]
      | during ts t1 t0 remaining n => cases (gauge_eq_iff.mp hg).1.symm.trans hr
      | ending ts t1 => cases (gauge_eq_iff.mp hg).1.symm.trans hr
      | ended ts t1 now controls h => cases (gauge_eq_iff.mp hg).1.symm.trans hr

theorem gauge_batch (u : System) (hself : u.toSelf = []) (hrecv : u.toReceiver = [])
    (hsend : u.toSender = []) (k : ℕ) (e : Echo) :
    ((List.replicate k (Effect.tell .payload) ++ [Effect.tell (.echo e)]).foldl
        System.perform u).gauge =
      ⟨u.sender.receive, [.echo e], u.sender.maxRoundTripMillis, reported u.printed⟩ := by
  have hpayload : Message.payload.isControl = false := rfl
  rw [foldl_batch]
  refine gauge_eq_iff.mpr ⟨rfl, ?_, rfl, rfl⟩
  simp [System.controls, hself, hrecv, hsend, Message.isControl]

theorem Measured.warmup (hi : Inv total burst s) (hs : Measured past s.gauge) {m : Message}
    {rest : List Message} (h : s.toSelf = m :: rest) (now : ℤ) :
    Measured past ({ s with toSelf := rest }.senderHandles now m).gauge := by
  generalize hg : s.gauge = g at hs
  obtain ⟨⟨rfl, rfl⟩, hr, hrecv, hsend, -⟩ := hi.warming h
  have hcontrols : s.controls = [.warmup] := by
    simp [System.controls, h, hrecv, hsend, Message.isControl]
  cases hs with
  | before receive controls _ =>
    obtain ⟨-, -, hmax, hreported⟩ := gauge_eq_iff.mp hg
    have hgauge := gauge_batch
      { s with toSelf := [], history := .handled .warmup :: s.history } rfl hrecv hsend
      (min s.sender.burstSize.toInt s.sender.burstSize.toInt).toNat .start
    rw [senderHandles_warmup (s := { s with toSelf := [] }) hr, sendBatch_eq, hgauge]
    simp only [hr, hmax, hreported]
    exact .before _ _ (Or.inr (Or.inr rfl))
  | during ts t1 t0 remaining n => cases (gauge_eq_iff.mp hg).2.1.symm.trans hcontrols
  | ending ts t1 => cases (gauge_eq_iff.mp hg).2.1.symm.trans hcontrols
  | ended ts t1 now controls h' =>
    have hcontrols' := (gauge_eq_iff.mp hg).2.1.symm.trans hcontrols
    rcases h' with rfl | rfl <;> cases hcontrols'

theorem Measured.receiver (hi : Inv total burst s) (hs : Measured past s.gauge) {m : Message}
    {rest : List Message} (h : s.toReceiver = m :: rest) :
    Measured past ({ s with toReceiver := rest }.receiverHandles m).gauge := by
  have hpayload : Message.payload.isControl = false := rfl
  obtain ⟨k, m', hcons, owed, -, -, hself, hsend⟩ := hi.outbound h
  have hcontrols : s.controls = [m'] := by
    simp [System.controls, hself, h.trans hcons, hsend, hpayload, owed.isControl]
  cases k with
  | succ k =>
    obtain ⟨rfl, rfl⟩ := List.cons.inj hcons
    have hgauge : ({ s with toReceiver := List.replicate k Message.payload ++ [m'] }.receiverHandles
        .payload).gauge = s.gauge := by
      refine gauge_eq_iff.mpr ⟨rfl, ?_, rfl, rfl⟩
      rw [hcontrols]
      simp [System.receiverHandles, System.controls, hself, hsend, hpayload, owed.isControl]
    exact hgauge ▸ hs
  | zero =>
    obtain ⟨rfl, rfl⟩ := List.cons.inj hcons
    cases m with
    | echo e =>
      have hgauge : ({ s with toReceiver := [] }.receiverHandles (.echo e)).gauge = s.gauge := by
        refine gauge_eq_iff.mpr ⟨rfl, ?_, rfl, rfl⟩
        rw [hcontrols]
        simp [System.receiverHandles, System.controls, hself, hsend, owed.isControl]
      exact hgauge ▸ hs
    | shutdown =>
      generalize hg : s.gauge = g at hs
      cases hs with
      | ended ts t1 now controls _ =>
        obtain ⟨hreceive, -, hmax, hreported⟩ := gauge_eq_iff.mp hg
        have hgauge : ({ s with toReceiver := [] }.receiverHandles .shutdown).gauge =
            ⟨.active, [], longest (roundTrips (ts ++ [t1])),
              [longest (roundTrips (ts ++ [t1]))]⟩ := by
          refine gauge_eq_iff.mpr ⟨hreceive, ?_, hmax, hreported⟩
          simp [System.receiverHandles, System.controls, hself, hsend]
        rw [hgauge]
        exact .ended ts t1 now [] (Or.inr rfl)
      | before receive controls h' =>
        have hcontrols' := (gauge_eq_iff.mp hg).2.1.symm.trans hcontrols
        rcases h' with rfl | rfl | rfl <;> cases hcontrols'
      | during ts t1 t0 remaining n => cases (gauge_eq_iff.mp hg).2.1.symm.trans hcontrols
      | ending ts t1 => cases (gauge_eq_iff.mp hg).2.1.symm.trans hcontrols
    | _ => exact owed.elim

/-! ## Bursts -/

/-- The handler that reads `now` sends a burst. -/
theorem Measured.burst_sent (u : System) (ts : List ℤ) (now t0 : ℤ) (remaining n : Int32)
    (hr : u.sender.receive = .active) (hself : u.toSelf = []) (hrecv : u.toReceiver = [])
    (hsend : u.toSender = [])
    (hmax : u.sender.maxRoundTripMillis = longest (roundTrips (ts ++ [now])))
    (hreported : reported u.printed = []) :
    Measured (ts ++ [now]) ((u.sender.sendBatch remaining ++ [Effect.tell
      (.echo (nextEcho (u.sender.afterBatch remaining) t0 now n))]).foldl
        System.perform u).gauge := by
  rw [sendBatch_eq, gauge_batch u hself hrecv hsend, hr, hmax, hreported]
  rcases nextEcho_cases (u.sender.afterBatch remaining) t0 now n with ⟨-, hnext⟩ | ⟨-, hnext⟩
  · rw [hnext]
    exact .ending ts now
  · rw [hnext]
    exact .during ts now t0 _ n

theorem Measured.start (hr : s.sender.receive = .active) (hself : s.toSelf = [])
    (hrecv : s.toReceiver = []) (hmax : s.sender.maxRoundTripMillis = 0)
    (hreported : reported s.printed = []) (now : ℤ) :
    Measured [now]
      (({ s with toSender := [] } : System).senderHandles now (.echo .start)).gauge := by
  rw [senderHandles_start (s := { s with toSender := [] }) hr]
  refine Measured.burst_sent _ [] now now s.sender.totalMessages _ hr hself hrecv rfl hmax ?_
  rw [reported, List.filterMap_append, ← reported, hreported]
  rfl

theorem Measured.continued (hr : s.sender.receive = .active) (hself : s.toSelf = [])
    (hrecv : s.toReceiver = []) {ts : List ℤ} {t1 : ℤ}
    (hmax : s.sender.maxRoundTripMillis = longest (roundTrips (ts ++ [t1])))
    (hreported : reported s.printed = []) (now : ℤ) (remaining : Int32) (t0 : ℤ) (n : Int32) :
    Measured (ts ++ [t1] ++ [now]) (({ s with toSender := [] } : System).senderHandles now
      (.echo (.continue remaining t0 t1 n))).gauge := by
  have hraised : max s.sender.maxRoundTripMillis (toMillis (now - t1)) =
      longest (roundTrips (ts ++ [t1] ++ [now])) := by
    rw [hmax, List.append_assoc, List.singleton_append, roundTrips_concat, longest_concat]
  rw [senderHandles_continue (s := { s with toSender := [] }) hr]
  refine Measured.burst_sent _ (ts ++ [t1]) now _ remaining _ hr hself hrecv rfl hraised ?_
  rw [reported, List.filterMap_append, ← reported, hreported]
  by_cases hduration : 500 ≤ toMillis (now - t0)
  · rw [if_pos hduration]
    rfl
  · rw [if_neg hduration]
    rfl

/-- The handler of `Done` prints the maximum as it is. -/
theorem Measured.done (hr : s.sender.receive = .active) (hself : s.toSelf = [])
    (hrecv : s.toReceiver = []) {ts : List ℤ} {t1 : ℤ}
    (hmax : s.sender.maxRoundTripMillis = longest (roundTrips (ts ++ [t1])))
    (hreported : reported s.printed = []) (now : ℤ) :
    Measured (ts ++ [t1] ++ [now])
      (({ s with toSender := [] } : System).senderHandles now (.echo .done)).gauge := by
  have hprinted : reported (s.printed ++
      [.took (toMillis (now - s.sender.startTime)) s.sender.maxRoundTripMillis]) =
      [longest (roundTrips (ts ++ [t1]))] := by
    rw [reported, List.filterMap_append, ← reported, hreported, ← hmax]
    rfl
  have hended := Measured.ended ts t1 now [.shutdown] (Or.inl rfl)
  rw [senderHandles_done (s := { s with toSender := [] }) hr, List.append_assoc]
  refine cast (congrArg (Measured _) (Eq.symm ?_)) hended
  refine gauge_eq_iff.mpr ⟨hr, ?_, hmax, hprinted⟩
  simp [System.controls, hself, hrecv, Message.isControl]

theorem Measured.echoed (hi : Inv total burst s) (hs : Measured past s.gauge) {e : Echo}
    {rest : List Echo} (h : s.toSender = e :: rest) (now : ℤ) :
    Measured (past ++ [now]) ({ s with toSender := rest }.senderHandles now (.echo e)).gauge := by
  generalize hg : s.gauge = g at hs
  obtain ⟨rfl, -, -, hr, hself, hrecv⟩ := hi.inbound h
  have hcontrols : s.controls = [.echo e] := by
    simp [System.controls, hself, hrecv, h, Message.isControl]
  cases hs with
  | before receive controls h' =>
    obtain ⟨-, hcontrols', hmax, hreported⟩ := gauge_eq_iff.mp hg
    have hone := hcontrols.symm.trans hcontrols'
    rcases h' with rfl | rfl | rfl
    · cases hone
    · cases hone
    · cases hone
      exact .start hr hself hrecv hmax hreported now
  | during ts t1 t0 remaining n =>
    obtain ⟨-, hcontrols', hmax, hreported⟩ := gauge_eq_iff.mp hg
    cases hcontrols.symm.trans hcontrols'
    exact .continued hr hself hrecv hmax hreported now remaining t0 n
  | ending ts t1 =>
    obtain ⟨-, hcontrols', hmax, hreported⟩ := gauge_eq_iff.mp hg
    cases hcontrols.symm.trans hcontrols'
    exact .done hr hself hrecv hmax hreported now
  | ended ts t1 now controls h' =>
    have hone := hcontrols.symm.trans (gauge_eq_iff.mp hg).2.1
    rcases h' with rfl | rfl <;> cases hone

/-! ## Runs -/

theorem measured_initial : Measured [] (System.initial total burst).gauge :=
  .before .identifying [] (Or.inl rfl)

theorem measured_step (s : System) (e : Label) (t : System) (hi : Inv total burst s)
    (hs : Measured past s.gauge) (h : step s e = some t) :
    Measured (past ++ e.reading.toList) t.gauge := by
  cases steps_of_step h with
  | identity found => exact (List.append_nil past).symm ▸ hs.identity hi found 0
  | timeout =>
    rw [gauge_handles_environment (Or.inl rfl) 0]
    exact (List.append_nil past).symm ▸ hs
  | watched =>
    rw [gauge_handles_environment (Or.inr (Or.inl rfl)) 0]
    exact (List.append_nil past).symm ▸ hs
  | selfNext now m rest hself => exact (List.append_nil past).symm ▸ hs.warmup hi hself now
  | senderNext now e rest hsend => exact hs.echoed hi hsend now
  | receiverNext m rest hrecv => exact (List.append_nil past).symm ▸ hs.receiver hi hrecv

theorem measured_of_run (htotal : 0 ≤ total.toInt) (hburst : 1 ≤ burst.toInt) (es : List Label)
    (s : System) (h : Transition.run step (.initial total burst) es = some s) :
    Measured (readings es) s.gauge := by
  refine Transition.run_induction (P := fun es s => Measured (readings es) s.gauge) ?_ ?_ es s h
  · exact measured_initial
  intro es s e t hr ih ht
  rw [readings_concat]
  exact measured_step s e t (inv_reachable htotal hburst ⟨es, hr⟩) ih ht

theorem toMillis_nonneg {nanos : ℤ} (h : 0 ≤ nanos) : 0 ≤ toMillis nanos :=
  Int.tdiv_nonneg h (by decide)

/-- What is printed is the maximum over all bursts exactly when the last one does not exceed the
others. -/
theorem reported_maximum_iff (totalMessages burstSize : Int32) (htotal : 1 ≤ totalMessages)
    (hburst : 1 ≤ burstSize) (es : List Label) (s : System)
    (hrun : Transition.run step (.initial totalMessages burstSize) es = some s)
    (hclock : (readings es).Pairwise (· ≤ ·)) (millis maxRoundTripMillis : ℤ)
    (hprinted : .took millis maxRoundTripMillis ∈ s.printed) :
    IsGreatest {m | m ∈ roundTrips (readings es)} maxRoundTripMillis ↔
      LastIsCovered (roundTrips (readings es)) := by
  have hmeasured := measured_of_run ((one_le_iff.mp htotal).trans' (by decide))
    (one_le_iff.mp hburst) es s hrun
  have hreported : maxRoundTripMillis ∈ s.gauge.reported :=
    List.mem_filterMap.mpr ⟨_, hprinted, rfl⟩
  generalize readings es = past at hmeasured hclock
  generalize s.gauge = g at hmeasured hreported
  cases hmeasured with
  | before receive controls h => cases hreported
  | during ts t1 t0 remaining n => cases hreported
  | ending ts t1 => cases hreported
  | ended ts t1 now controls h =>
    rw [List.mem_singleton.mp hreported, roundTrips_concat]
    refine isGreatest_longest_iff (toMillis_nonneg ?_)
    have hpair := (List.pairwise_append.mp hclock).2.1
    have hle : t1 ≤ now := by simpa using hpair
    omega

end RoundTrip

/-- One message in one burst, whose token comes back after three milliseconds. -/
def oneBurst : List Label :=
  [.identity true, .selfNext 0, .receiverNext, .receiverNext, .senderNext 0, .receiverNext,
    .receiverNext, .senderNext 3000000]

theorem oneBurst_printed : ∃ s, Transition.run step (.initial 1 1) oneBurst = some s ∧
    .took 3 0 ∈ s.printed := by
  have hrun : (Transition.run step (.initial 1 1) oneBurst).map System.printed =
      some [.starting, .took 3 0] := by decide
  obtain ⟨s, hs, hprinted⟩ := Option.map_eq_some_iff.mp hrun
  exact ⟨s, hs, hprinted ▸ by simp⟩

theorem reported_maximum_iff_one :
    ∃ s, Transition.run step (.initial 1 1) oneBurst = some s ∧
      (IsGreatest {m | m ∈ roundTrips (readings oneBurst)} 0 ↔
        LastIsCovered (roundTrips (readings oneBurst))) := by
  obtain ⟨s, hs, hprinted⟩ := oneBurst_printed
  exact ⟨s, hs, reported_maximum_iff 1 1 (by decide) (by decide) oneBurst s hs (by decide) 3 0
    hprinted⟩

/-- The single burst took three milliseconds, and the maximum is printed as 0. -/
theorem last_burst_unreported :
    ¬ ∀ (totalMessages burstSize : Int32) (es : List Label) (s : System), 1 ≤ totalMessages →
      1 ≤ burstSize → Transition.run step (.initial totalMessages burstSize) es = some s →
      (readings es).Pairwise (· ≤ ·) → ∀ millis maxRoundTripMillis,
      .took millis maxRoundTripMillis ∈ s.printed →
      IsGreatest {m | m ∈ roundTrips (readings es)} maxRoundTripMillis := by
  intro h
  obtain ⟨s, hs, hprinted⟩ := oneBurst_printed
  have hgreatest := h 1 1 oneBurst s (by decide) (by decide) hs (by decide) 3 0 hprinted
  have htrips : roundTrips (readings oneBurst) = [3] := by decide
  rw [htrips] at hgreatest
  have hmem := List.mem_singleton.mp hgreatest.1
  exact absurd hmem (by decide)

end SbtExample.Benchmark
