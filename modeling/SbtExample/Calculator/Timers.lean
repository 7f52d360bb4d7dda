import SbtExample.Calculator.Retry

/-! # One retry timer, or several

Every request starts a timer that nothing cancels. The active behaviour ignores a leftover timeout,
but when the calculator is lost before that timeout has come the actor starts another timer beside
it. Otherwise a single one is pending all the time, and two requests are a retry period apart.
-/
set_option autoImplicit false
set_option maxHeartbeats 250000

namespace SbtExample.Calculator.LookupActor
open Transition

section Timers
variable {Double ActorRef : Type}

/-- The timeouts that are scheduled or wait in the mailbox. -/
def State.pending (s : State Double ActorRef) : ℕ :=
  s.scheduled + s.mailbox.countP Message.isTimeout

theorem request_counts (path : String) :
    (sendIdentifyRequest path : List (Effect Double ActorRef)).countP Effect.isTimer = 1 ∧
      (sendIdentifyRequest path : List (Effect Double ActorRef)).countP Effect.isIdentify = 1 :=
  ⟨rfl, rfl⟩

variable [DecidableEq ActorRef]

/-- The messages upon which a request is sent: `sendIdentifyRequest` is called by the handler, or by
the constructor of the restarted actor. -/
def asks (onDeathPact : Directive) : Behavior ActorRef → Message Double ActorRef → Bool
  | .identifying, .receiveTimeout => true
  | .active actor, .terminated dead =>
    decide (dead = actor) || match onDeathPact with | .restart => true | .stop => false
  | .active _, .mathResult (.multiplication _ _ _) => true
  | .active _, .mathResult (.division _ _ _) => true
  | _, _ => false

/-- The active actor is about to ask anew while an earlier timeout is still pending. -/
def Overlaps (onDeathPact : Directive) (s : State Double ActorRef) : Label Double ActorRef → Prop
  | .handle => 0 < s.pending ∧ ∃ actor m, s.behavior = some (.active actor) ∧
      s.mailbox.head? = some m ∧ asks onDeathPact (.active actor) m = true
  | _ => False

variable {path : String} {onDeathPact : Directive} {s t : State Double ActorRef}

/-! ## What a message adds -/

theorem handle_counts (path : String) (onDeathPact : Directive) (b : Behavior ActorRef)
    (m : Message Double ActorRef) :
    (handle path onDeathPact b m).2.countP Effect.isTimer = (asks onDeathPact b m).toNat ∧
      (handle path onDeathPact b m).2.countP Effect.isIdentify = (asks onDeathPact b m).toNat := by
  cases b with
  | identifying =>
    cases m with
    | actorIdentity correlationId ref =>
      by_cases hid : correlationId = path
      · cases ref <;> simp [handle, receive, identifying, hid, asks, Effect.isTimer,
          Effect.isIdentify]
      · cases ref <;> simp [handle, receive, identifying, hid, asks, Effect.isTimer,
          Effect.isIdentify]
    | receiveTimeout => exact ⟨rfl, rfl⟩
    | terminated dead => exact ⟨rfl, rfl⟩
    | mathOp op => exact ⟨rfl, rfl⟩
    | mathResult result => exact ⟨rfl, rfl⟩
    | other => exact ⟨rfl, rfl⟩
  | active actor =>
    cases m with
    | terminated dead =>
      by_cases hdead : dead = actor
      · simp [handle, receive, active, hdead, asks, Effect.isTimer, Effect.isIdentify,
          request_counts]
      · cases onDeathPact with
        | restart => simp [handle, receive, active, hdead, asks, started, request_counts]
        | stop => simp [handle, receive, active, hdead, asks]
    | mathResult result => cases result <;> exact ⟨rfl, rfl⟩
    | actorIdentity correlationId ref => exact ⟨rfl, rfl⟩
    | receiveTimeout => exact ⟨rfl, rfl⟩
    | mathOp op => exact ⟨rfl, rfl⟩
    | other => exact ⟨rfl, rfl⟩

theorem asks_active_timeout {actor : ActorRef} {m : Message Double ActorRef}
    (h : asks onDeathPact (.active actor) m = true) : m.isTimeout = false := by
  cases m with
  | receiveTimeout => cases h
  | _ => rfl

theorem asks_identifying (m : Message Double ActorRef) :
    asks onDeathPact .identifying m = m.isTimeout := by
  cases m <;> rfl

/-- The message is taken, and a request is sent or not. -/
theorem pending_handle {m : Message Double ActorRef} {b : Behavior ActorRef}
    (hmailbox : s.mailbox = m :: t.mailbox)
    (hscheduled : t.scheduled = s.scheduled +
      (handle path onDeathPact b m).2.countP Effect.isTimer) :
    t.pending + m.isTimeout.toNat = s.pending + (asks onDeathPact b m).toNat := by
  rw [(handle_counts path onDeathPact b m).1] at hscheduled
  unfold State.pending
  rw [hmailbox, List.countP_cons, hscheduled]
  cases m.isTimeout <;> simp <;> omega

theorem pending_step (s : State Double ActorRef) (e : Label Double ActorRef)
    (t : State Double ActorRef) (hs : s.pending ≤ 1) (h : step path onDeathPact s e = some t) :
    t.pending ≤ 1 ↔ ¬ Overlaps onDeathPact s e := by
  cases e with
  | arrive m =>
    obtain ⟨hm, rfl⟩ := step_arrive h
    refine iff_of_true ?_ id
    simpa [State.pending, hm] using hs
  | fire =>
    obtain ⟨hscheduled, hmailbox, -, -⟩ := step_fire h
    refine iff_of_true ?_ id
    unfold State.pending at hs ⊢
    rw [hmailbox, List.countP_append]
    have hone : ([.receiveTimeout] : List (Message Double ActorRef)).countP Message.isTimeout = 1 :=
      rfl
    omega
  | handle =>
    obtain ⟨m, hmailbox, ⟨hnone, ht⟩ | ⟨b, hb, -, hscheduled, -⟩⟩ := step_handle h
    · refine iff_of_true ?_ ?_
      · have hscheduled : t.scheduled = s.scheduled := by rw [ht]
        unfold State.pending at hs ⊢
        rw [hmailbox, List.countP_cons] at hs
        omega
      · rintro ⟨-, actor, m, hactive, -⟩
        rw [hnone] at hactive
        cases hactive
    · have hpending := pending_handle hmailbox hscheduled
      cases b with
      | identifying =>
        rw [asks_identifying] at hpending
        refine iff_of_true (by omega) ?_
        rintro ⟨-, actor, m, hactive, -⟩
        rw [hb] at hactive
        cases hactive
      | active actor =>
        have hoverlaps : Overlaps onDeathPact s .handle ↔
            0 < s.pending ∧ asks onDeathPact (.active actor) m = true := by
          simp [Overlaps, hb, hmailbox]
        rw [hoverlaps]
        cases hasks : asks onDeathPact (.active actor) m with
        | false =>
          rw [hasks] at hpending
          simp at hpending ⊢
          omega
        | true =>
          rw [hasks, asks_active_timeout hasks] at hpending
          simp at hpending ⊢
          omega

end Timers

section Time
variable {Double ActorRef : Type} {path : String} {period : ℕ}

/-! ## Time -/

/-- A run with its clock: when the requests were sent, and how many timers have fired. -/
structure Clocked (Double ActorRef : Type) where
  state : State Double ActorRef
  now : ℕ
  requests : List ℕ
  fired : ℕ

def Clocked.initial (path : String) : Clocked Double ActorRef := ⟨.initial path, 0, [0], 0⟩

/-- Two requests are a retry period apart at least. -/
def Spaced (period : ℕ) (requests : List ℕ) : Prop :=
  requests.IsChain fun r r' => r + period ≤ r'

/-- Every request has a timer, which has fired a period later or is still scheduled. -/
structure Ticks (period : ℕ) (c : Clocked Double ActorRef) : Prop where
  started : c.requests.length = c.fired + c.state.scheduled
  elapsed : ∀ k < c.fired, ∀ r ∈ c.requests[k]?, r + period ≤ c.now
  spaced : Spaced period c.requests

theorem ticks_initial : Ticks period (.initial path : Clocked Double ActorRef) where
  started := rfl
  elapsed _ hk := absurd hk (Nat.not_lt_zero _)
  spaced := List.isChain_singleton _

variable {c d : Clocked Double ActorRef}

/-- A request is sent when no timer is scheduled, that is, when all of them have fired. -/
theorem Ticks.request (hc : Ticks period c) (hscheduled : c.state.scheduled = 0) {time : ℕ}
    (hnow : c.now ≤ time) : Spaced period (c.requests ++ [time]) := by
  have hstarted := hc.started
  refine hc.spaced.append (List.isChain_singleton time) fun r hr r' hr' => ?_
  cases hr'
  rw [Option.mem_def, List.getLast?_eq_getElem?] at hr
  have hpos : 0 < c.requests.length := by
    rcases List.eq_nil_or_concat c.requests with hnil | ⟨l, a, hl⟩
    · simp [hnil] at hr
    · simp [hl]
  exact (hc.elapsed (c.requests.length - 1) (by omega) r hr).trans hnow

variable [DecidableEq ActorRef]

/-- A label is executed at a time. All timers run for the retry `period`, so that they fire in the
order of their requests, and none earlier than a period after its request. -/
def clockedStep (period : ℕ) (path : String) (onDeathPact : Directive)
    (c : Clocked Double ActorRef) : Label Double ActorRef × ℕ → Option (Clocked Double ActorRef)
  | (.fire, time) =>
    if c.now ≤ time ∧ ∀ r ∈ c.requests[c.fired]?, r + period ≤ time then
      (step path onDeathPact c.state .fire).map fun t => ⟨t, time, c.requests, c.fired + 1⟩
    else none
  | (e, time) =>
    if c.now ≤ time then
      (step path onDeathPact c.state e).map fun t =>
        ⟨t, time, c.requests ++ List.replicate (t.sent - c.state.sent) time, c.fired⟩
    else none

/-- A single timer throughout the run, and, whatever the times of its steps are, no two requests
within a retry period. -/
structure SingleTimer (path : String) (onDeathPact : Directive)
    (es : List (Label Double ActorRef)) : Prop where
  single : Throughout (step path onDeathPact) (fun s => s.pending ≤ 1) (.initial path) es
  spaced : ∀ (period : ℕ) (ts : List (Label Double ActorRef × ℕ)) (c : Clocked Double ActorRef),
    ts.map Prod.fst = es → run (clockedStep period path onDeathPact) (.initial path) ts = some c →
      Spaced period c.requests

variable {onDeathPact : Directive} {s t : State Double ActorRef}

/-- What a step sends, it also schedules. -/
theorem sent_step (e : Label Double ActorRef) (h : step path onDeathPact s e = some t) :
    e = .fire ∧ s.scheduled = t.scheduled + 1 ∨
      e ≠ .fire ∧ ∃ k, t.sent = s.sent + k ∧ t.scheduled = s.scheduled + k := by
  cases e with
  | arrive m =>
    obtain ⟨-, rfl⟩ := step_arrive h
    exact Or.inr ⟨by simp, 0, rfl, rfl⟩
  | fire => exact Or.inl ⟨rfl, (step_fire h).1⟩
  | handle =>
    refine Or.inr ⟨by simp, ?_⟩
    obtain ⟨m, -, ⟨-, ht⟩ | ⟨b, -, -, hscheduled, heffects⟩⟩ := step_handle h
    · exact ⟨0, by rw [ht]; rfl, by rw [ht]; rfl⟩
    · obtain ⟨htimer, hidentify⟩ := handle_counts path onDeathPact b m
      refine ⟨(asks onDeathPact b m).toNat, ?_, by rw [hscheduled, htimer]⟩
      rw [State.sent, heffects, List.countP_append, hidentify]
      rfl

/-- What the clock adds to a step. -/
inductive ClockedStep (period : ℕ) (c d : Clocked Double ActorRef) (time : ℕ) :
    Label Double ActorRef → Prop
  | fire (requests : d.requests = c.requests) (fired : d.fired = c.fired + 1)
      (due : ∀ r ∈ c.requests[c.fired]?, r + period ≤ time) : ClockedStep period c d time .fire
  | other (e : Label Double ActorRef) (hne : e ≠ .fire)
      (requests : d.requests =
        c.requests ++ List.replicate (d.state.sent - c.state.sent) time)
      (fired : d.fired = c.fired) : ClockedStep period c d time e

theorem step_of_clockedStep {e : Label Double ActorRef} {time : ℕ}
    (h : clockedStep period path onDeathPact c (e, time) = some d) :
    step path onDeathPact c.state e = some d.state ∧ c.now ≤ time ∧ d.now = time ∧
      ClockedStep period c d time e := by
  cases e with
  | fire =>
    rw [clockedStep] at h
    split at h
    next hc =>
      obtain ⟨t, ht, rfl⟩ := Option.map_eq_some_iff.mp h
      exact ⟨ht, hc.1, rfl, .fire rfl rfl hc.2⟩
    next => cases h
  | arrive m =>
    simp only [clockedStep] at h
    split at h
    next hc =>
      obtain ⟨t, ht, rfl⟩ := Option.map_eq_some_iff.mp h
      exact ⟨ht, hc, rfl, .other _ nofun rfl rfl⟩
    next => cases h
  | handle =>
    simp only [clockedStep] at h
    split at h
    next hc =>
      obtain ⟨t, ht, rfl⟩ := Option.map_eq_some_iff.mp h
      exact ⟨ht, hc, rfl, .other _ nofun rfl rfl⟩
    next => cases h

theorem ticks_step (hc : Ticks period c) {e : Label Double ActorRef} {time : ℕ}
    (h : clockedStep period path onDeathPact c (e, time) = some d) (hd : d.state.pending ≤ 1) :
    Ticks period d := by
  obtain ⟨hstep, hnow, htime, hclock⟩ := step_of_clockedStep h
  have hstarted := hc.started
  have hle : d.state.scheduled ≤ d.state.pending := Nat.le_add_right ..
  cases hclock with
  | fire hrequests hfired hdue =>
    have hscheduled := (step_fire hstep).1
    refine ⟨by rw [hrequests, hfired]; omega, fun k hk r hr => ?_, hrequests ▸ hc.spaced⟩
    rw [hrequests] at hr
    rw [htime]
    rcases Nat.lt_succ_iff_lt_or_eq.mp (hfired ▸ hk) with hlt | rfl
    · exact (hc.elapsed k hlt r hr).trans hnow
    · exact hdue r hr
  | other _ hne hrequests hfired =>
    obtain ⟨heq, -⟩ | ⟨-, k, hsent, hscheduled⟩ := sent_step e hstep
    · exact absurd heq hne
    rw [hsent, Nat.add_sub_cancel_left] at hrequests
    refine ⟨?_, fun j hj r hr => ?_, ?_⟩
    · rw [hrequests, List.length_append, List.length_replicate]
      omega
    · rw [hrequests, List.getElem?_append_left (by omega)] at hr
      exact htime ▸ (hc.elapsed j (hfired ▸ hj) r hr).trans hnow
    · rw [hrequests]
      rcases Nat.le_one_iff_eq_zero_or_eq_one.mp (show k ≤ 1 by omega) with rfl | rfl
      · rw [List.replicate_zero, List.append_nil]
        exact hc.spaced
      · exact hc.request (by omega) hnow

/-- A run with a clock is a run. -/
theorem run_of_clocked (ts : List (Label Double ActorRef × ℕ))
    (h : run (clockedStep period path onDeathPact) (.initial path) ts = some c) :
    run (step path onDeathPact) (.initial path) (ts.map Prod.fst) = some c.state := by
  refine run_induction (P := fun ts c =>
    run (step path onDeathPact) (.initial path) (ts.map Prod.fst) = some c.state) rfl ?_ ts c h
  intro ts c e d _ ih hd
  rw [List.map_append, List.map_singleton, run_concat, ih]
  exact (step_of_clockedStep hd).1

theorem ticks_of_run (ts : List (Label Double ActorRef × ℕ))
    (h : run (clockedStep period path onDeathPact) (.initial path) ts = some c)
    (hsingle : Throughout (step path onDeathPact) (fun s => s.pending ≤ 1) (.initial path)
      (ts.map Prod.fst)) : Ticks period c := by
  refine run_induction (P := fun ts c => Throughout (step path onDeathPact) (fun s => s.pending ≤ 1)
    (.initial path) (ts.map Prod.fst) → Ticks period c) (fun _ => ticks_initial) ?_ ts c h hsingle
  intro ts c e d hr ih hd hsingle
  rw [List.map_append, List.map_singleton,
    throughout_concat (run_of_clocked ts hr) (step_of_clockedStep hd).1] at hsingle
  exact ticks_step (ih hsingle.1) hd hsingle.2

/-- Exactly the runs in which the calculator is never lost before the last timeout has come. -/
theorem single_timer_iff (path : String) (onDeathPact : Directive)
    (es : List (Label Double ActorRef)) (s : State Double ActorRef)
    (h : run (step path onDeathPact) (.initial path) es = some s) :
    SingleTimer path onDeathPact es ↔
      Along (step path onDeathPact) (fun s e => ¬ Overlaps onDeathPact s e) (.initial path) es := by
  have hiff := throughout_iff_along (P := fun s => s.pending ≤ 1)
    (Q := fun s e => ¬ Overlaps onDeathPact s e)
    (le_refl 1 : (State.initial path : State Double ActorRef).pending ≤ 1)
    pending_step es s h
  refine ⟨fun hs => hiff.mp hs.single, fun halong => ⟨hiff.mpr halong, ?_⟩⟩
  rintro period ts c rfl hts
  exact (ticks_of_run ts hts (hiff.mpr halong)).spaced

end Time

/-- The calculator is found and, after the timeout has come, lost. -/
def foundAndLost : List (Label ℤ ℕ) :=
  [.arrive (.actorIdentity "calculator" (some 0)), .handle, .fire, .handle, .arrive (.terminated 0),
    .handle]

theorem single_timer_iff_lost_late :
    SingleTimer "calculator" .restart foundAndLost ↔
      Along (step "calculator" .restart) (fun s e => ¬ Overlaps .restart s e)
        (.initial "calculator") foundAndLost :=
  single_timer_iff "calculator" .restart foundAndLost _ rfl

/-- The calculator is lost at once: two timers are scheduled. -/
theorem two_timers :
    ¬ ∀ s : State ℤ ℕ, Reachable (step "calculator" .restart) (.initial "calculator") s →
      s.pending ≤ 1 := by
  intro h
  have htwo := h _ ⟨[.arrive (.actorIdentity "calculator" (some 0)), .handle,
    .arrive (.terminated 0), .handle], rfl⟩
  exact absurd htwo (by decide)

end SbtExample.Calculator.LookupActor
