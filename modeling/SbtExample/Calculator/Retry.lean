import SbtExample.Calculator.Lookup

/-! # The retry never stalls

As long as the actor looks for the calculator, a timeout is scheduled or waits in its mailbox. The
handlers that leave the actor without a calculator all schedule one, and the only handler that uses
one up schedules the next.
-/
set_option autoImplicit false
set_option maxHeartbeats 250000

namespace SbtExample.Calculator.LookupActor

section Retry
variable {Double ActorRef : Type} {path : String} {s t : State Double ActorRef}

def Alive (s : State Double ActorRef) : Prop :=
  s.behavior = some .identifying → 0 < s.scheduled ∨ .receiveTimeout ∈ s.mailbox

def Effect.isIdentify : Effect Double ActorRef → Bool
  | .identify _ => true
  | _ => false

def Effect.isWatch : Effect Double ActorRef → Bool
  | .watch _ => true
  | _ => false

def State.sent (s : State Double ActorRef) : ℕ := s.effects.countP Effect.isIdentify

def State.identified (s : State Double ActorRef) : ℕ := s.effects.countP Effect.isWatch

theorem alive_initial : Alive (State.initial path : State Double ActorRef) :=
  fun _ => Or.inl Nat.one_pos

theorem countP_isTimer_request (path : String) (log : List (Effect Double ActorRef)) :
    0 < (log ++ sendIdentifyRequest path).countP Effect.isTimer := by
  rw [List.countP_append]
  exact Nat.lt_of_lt_of_le Nat.one_pos (Nat.le_add_left 1 _)

/-! ## What a message does -/

variable [DecidableEq ActorRef] {onDeathPact : Directive}

theorem handle_identifying (path : String) (onDeathPact : Directive)
    (m : Message Double ActorRef) :
    m = .receiveTimeout ∧ handle path onDeathPact .identifying m = started path ∨
      (∃ actor, handle path onDeathPact .identifying m = (some (.active actor), [.watch actor])) ∨
      m ≠ .receiveTimeout ∧ ∃ effects,
        handle path onDeathPact .identifying m = (some .identifying, effects) := by
  cases m with
  | receiveTimeout => exact Or.inl ⟨rfl, rfl⟩
  | actorIdentity correlationId ref =>
    by_cases hid : correlationId = path
    · cases ref with
      | none =>
        refine Or.inr (Or.inr ⟨by simp, [.error ("Remote actor not available: " ++ path)], ?_⟩)
        simp [handle, receive, identifying, hid]
      | some actor => exact Or.inr (Or.inl ⟨actor, by simp [handle, receive, identifying, hid]⟩)
    · refine Or.inr (Or.inr ⟨by simp, [.info "Not ready yet"], ?_⟩)
      cases ref <;> simp [handle, receive, identifying, hid]
  | terminated dead => exact Or.inr (Or.inr ⟨by simp, _, rfl⟩)
  | mathOp op => exact Or.inr (Or.inr ⟨by simp, _, rfl⟩)
  | mathResult result => exact Or.inr (Or.inr ⟨by simp, _, rfl⟩)
  | other => exact Or.inr (Or.inr ⟨by simp, _, rfl⟩)

theorem handle_active (path : String) (onDeathPact : Directive) (actor : ActorRef)
    (m : Message Double ActorRef) :
    (∃ effects, handle path onDeathPact (.active actor) m = (some (.active actor), effects)) ∨
      handle path onDeathPact (.active actor) m = (none, []) ∨
      ∃ log, handle path onDeathPact (.active actor) m =
        (some .identifying, log ++ sendIdentifyRequest path) := by
  cases m with
  | actorIdentity correlationId ref => exact Or.inl ⟨_, rfl⟩
  | receiveTimeout => exact Or.inl ⟨_, rfl⟩
  | terminated dead =>
    by_cases hdead : dead = actor
    · refine Or.inr (Or.inr ⟨[.info "Calculator terminated"], ?_⟩)
      simp [handle, receive, active, hdead]
    · cases onDeathPact with
      | restart =>
        refine Or.inr (Or.inr ⟨[], ?_⟩)
        simp [handle, receive, active, hdead, started]
      | stop =>
        refine Or.inr (Or.inl ?_)
        simp [handle, receive, active, hdead]
  | mathOp op => exact Or.inl ⟨_, rfl⟩
  | mathResult result =>
    cases result with
    | add n1 n2 r => exact Or.inl ⟨_, rfl⟩
    | subtract n1 n2 r => exact Or.inl ⟨_, rfl⟩
    | multiplication n1 n2 r => exact Or.inr (Or.inr ⟨[], rfl⟩)
    | division n1 n2 r => exact Or.inr (Or.inr ⟨[], rfl⟩)
  | other => exact Or.inl ⟨_, rfl⟩

/-- A message leaves the actor without a calculator only if it schedules a timeout, or if the
actor had none before and the message is not the timeout. -/
theorem timer_of_identifying {b : Behavior ActorRef} {m : Message Double ActorRef}
    (h : (handle path onDeathPact b m).1 = some .identifying) :
    0 < (handle path onDeathPact b m).2.countP Effect.isTimer ∨
      b = .identifying ∧ m ≠ .receiveTimeout := by
  cases b with
  | identifying =>
    rcases handle_identifying path onDeathPact m with ⟨-, hm⟩ | ⟨actor, hm⟩ | ⟨hne, -⟩
    · rw [hm]
      exact Or.inl (countP_isTimer_request path [])
    · rw [hm] at h
      cases h
    · exact Or.inr ⟨rfl, hne⟩
  | active actor =>
    rcases handle_active path onDeathPact actor m with ⟨effects, hm⟩ | hm | ⟨log, hm⟩
    · rw [hm] at h
      cases h
    · rw [hm] at h
      cases h
    · rw [hm]
      exact Or.inl (countP_isTimer_request path log)

/-! ## The steps -/

theorem step_arrive {m : Message Double ActorRef}
    (h : step path onDeathPact s (.arrive m) = some t) :
    m.isTimeout = false ∧ t = { s with mailbox := s.mailbox ++ [m] } := by
  rw [step] at h
  split at h
  next => cases h
  next hm =>
    cases h
    exact ⟨Bool.eq_false_iff.mpr hm, rfl⟩

theorem step_fire (h : step path onDeathPact s .fire = some t) :
    s.scheduled = t.scheduled + 1 ∧ t.mailbox = s.mailbox ++ [.receiveTimeout] ∧
      t.behavior = s.behavior ∧ t.effects = s.effects := by
  rw [step] at h
  split at h
  next => cases h
  next n hn =>
    cases h
    exact ⟨hn, rfl, rfl, rfl⟩

theorem step_handle (h : step path onDeathPact s .handle = some t) :
    ∃ m, s.mailbox = m :: t.mailbox ∧
      (s.behavior = none ∧ t = { s with mailbox := t.mailbox } ∨
        ∃ b, s.behavior = some b ∧ t.behavior = (handle path onDeathPact b m).1 ∧
          t.scheduled = s.scheduled + (handle path onDeathPact b m).2.countP Effect.isTimer ∧
          t.effects = s.effects ++ (handle path onDeathPact b m).2) := by
  rw [step] at h
  split at h
  next => cases h
  next m rest hmailbox hb =>
    cases h
    exact ⟨m, hmailbox, Or.inl ⟨hb, rfl⟩⟩
  next m rest b hmailbox hb =>
    cases h
    exact ⟨m, hmailbox, Or.inr ⟨b, hb, rfl, rfl, rfl⟩⟩

theorem alive_step (s : State Double ActorRef) (e : Label Double ActorRef)
    (t : State Double ActorRef) (hs : Alive s) (h : step path onDeathPact s e = some t) :
    Alive t := by
  intro hb
  cases e with
  | arrive m =>
    obtain ⟨-, rfl⟩ := step_arrive h
    exact (hs hb).imp_right (List.mem_append_left _)
  | fire =>
    obtain ⟨-, hmailbox, -, -⟩ := step_fire h
    rw [hmailbox]
    exact Or.inr (List.mem_append_right _ (List.mem_singleton_self _))
  | handle =>
    obtain ⟨m, hmailbox, ⟨hnone, ht⟩ | ⟨b, hsb, htb, hscheduled, -⟩⟩ := step_handle h
    · rw [ht] at hb
      rw [hnone] at hb
      cases hb
    · rcases timer_of_identifying (htb ▸ hb) with htimer | ⟨rfl, hm⟩
      · exact Or.inl (by omega)
      · rcases hs hsb with hpos | hmem
        · exact Or.inl (by omega)
        · rw [hmailbox] at hmem
          exact Or.inr ((List.mem_cons.mp hmem).resolve_left (Ne.symm hm))

theorem alive_of_reachable
    (h : Transition.Reachable (step path onDeathPact) (State.initial path) s) : Alive s :=
  h.invariant alive_initial fun s e t _ hs ht => alive_step s e t hs ht

end Retry

section Progress
variable {Double ActorRef : Type}

/-! ## The way to the next request -/

/-- How many messages stand before the first timeout; `⊤` without a timeout. -/
def distance : List (Message Double ActorRef) → ℕ∞
  | [] => ⊤
  | m :: rest => if m.isTimeout then 0 else distance rest + 1

theorem distance_append {l : List (Message Double ActorRef)} {m : Message Double ActorRef}
    (h : distance l ≠ ⊤ ∨ m.isTimeout = false) : distance (l ++ [m]) = distance l := by
  induction l with
  | nil =>
    have hm : m.isTimeout = false := h.resolve_left fun hne => hne rfl
    simp [distance, hm]
  | cons m' rest ih =>
    rw [List.cons_append, distance, distance]
    split
    next => rfl
    next hm' =>
      rw [ih (h.imp_left fun hne htop => hne (by simp [distance, hm', htop]))]

theorem distance_append_timeout (l : List (Message Double ActorRef)) :
    distance (l ++ [.receiveTimeout]) ≠ ⊤ := by
  induction l with
  | nil => simp [distance, Message.isTimeout]
  | cons m rest ih =>
    rw [List.cons_append, distance]
    split
    next => simp
    next => simpa using ih

theorem distance_eq_top {l : List (Message Double ActorRef)} (h : distance l = ⊤) :
    .receiveTimeout ∉ l := by
  intro hmem
  obtain ⟨l₁, l₂, rfl⟩ := List.append_of_mem hmem
  induction l₁ with
  | nil => cases h
  | cons m l₁ ih =>
    rw [List.cons_append, distance] at h
    split at h
    next => cases h
    next => exact ih (by simpa using h) (List.mem_append_right _ (List.mem_cons_self ..))

theorem distance_cons {m : Message Double ActorRef} {rest : List (Message Double ActorRef)}
    (hm : m ≠ .receiveTimeout) : distance (m :: rest) = distance rest + 1 := by
  cases m with
  | receiveTimeout => exact absurd rfl hm
  | actorIdentity correlationId ref => rfl
  | terminated actor => rfl
  | mathOp op => rfl
  | mathResult result => rfl
  | other => rfl

/-- Fires the timer, or handles messages until the timeout is handled. -/
def helpful (s : State Double ActorRef) : Label Double ActorRef :=
  if distance s.mailbox = ⊤ then .fire else .handle

variable [DecidableEq ActorRef] {path : String} {onDeathPact : Directive}

/-- Since `s₀` the actor has been looking for the calculator. -/
structure Looking (s₀ s : State Double ActorRef) : Prop where
  behavior : s.behavior = some .identifying
  alive : Alive s
  sent : s₀.sent ≤ s.sent
  identified : s₀.identified ≤ s.identified

def Retried (s₀ s : State Double ActorRef) : Prop :=
  s₀.sent < s.sent ∨ s₀.identified < s.identified

theorem Looking.enabled {s₀ s : State Double ActorRef} (h : Looking s₀ s) :
    step path onDeathPact s (helpful s) ≠ none := by
  by_cases htop : distance s.mailbox = ⊤
  · have hpos := (h.alive h.behavior).resolve_right (distance_eq_top htop)
    obtain ⟨n, hn⟩ := Nat.exists_eq_succ_of_ne_zero hpos.ne'
    simp [helpful, htop, step, hn]
  · cases hmailbox : s.mailbox with
    | nil => exact absurd (by rw [hmailbox]; rfl) htop
    | cons m rest =>
      rw [hmailbox] at htop
      simp [helpful, hmailbox, htop, step, h.behavior]

theorem Looking.handle {s₀ s t : State Double ActorRef} (h : Looking s₀ s)
    (ht : step path onDeathPact s .handle = some t) :
    Retried s₀ t ∨ Looking s₀ t ∧ distance s.mailbox = distance t.mailbox + 1 := by
  have halive := alive_step s _ t h.alive ht
  obtain ⟨m, hmailbox, ⟨hnone, -⟩ | ⟨b, hsb, htb, hscheduled, heffects⟩⟩ := step_handle ht
  · rw [h.behavior] at hnone
    cases hnone
  · cases h.behavior.symm.trans hsb
    have hsent : t.sent = s.sent + (LookupActor.handle path onDeathPact .identifying m).2.countP
        Effect.isIdentify := by rw [State.sent, heffects, List.countP_append, ← State.sent]
    have hidentified : t.identified = s.identified +
        (LookupActor.handle path onDeathPact .identifying m).2.countP Effect.isWatch := by
      rw [State.identified, heffects, List.countP_append, ← State.identified]
    have hle := h.sent
    have hle' := h.identified
    rcases handle_identifying path onDeathPact m with ⟨-, hm⟩ | ⟨actor, hm⟩ | ⟨hne, effects, hm⟩
    · have hone : t.sent = s.sent + 1 := by rw [hsent, hm]; rfl
      exact Or.inl (Or.inl (by omega))
    · have hone : t.identified = s.identified + 1 := by rw [hidentified, hm]; rfl
      exact Or.inl (Or.inr (by omega))
    · refine Or.inr ⟨⟨by rw [htb, hm], halive, by omega, by omega⟩, ?_⟩
      rw [hmailbox, distance_cons hne]

/-- A timer that fires brings a timeout into the mailbox, and every message before it that is
handled brings it nearer. -/
theorem helps (s₀ : State Double ActorRef) :
    Transition.Helps (step path onDeathPact) (Looking s₀) (Retried s₀)
      (fun s => distance s.mailbox) helpful where
  enabled _ h := h.enabled
  next s e t h ht := by
    have halive := alive_step s e t h.alive ht
    cases e with
    | arrive m =>
      obtain ⟨hm, rfl⟩ := step_arrive ht
      have hsame := distance_append (l := s.mailbox) (Or.inr hm)
      refine Or.inr ⟨⟨h.behavior, halive, h.sent, h.identified⟩, Or.inr ⟨hsame, ?_, ?_⟩⟩
      · rw [helpful, helpful, hsame]
      · rw [helpful]
        split <;> simp
    | fire =>
      obtain ⟨-, hmailbox, hb, heffects⟩ := step_fire ht
      have hsent : t.sent = s.sent := congrArg (List.countP Effect.isIdentify) heffects
      have hidentified : t.identified = s.identified :=
        congrArg (List.countP Effect.isWatch) heffects
      refine Or.inr ⟨⟨hb.trans h.behavior, halive, hsent ▸ h.sent, hidentified ▸ h.identified⟩, ?_⟩
      by_cases htop : distance s.mailbox = ⊤
      · left
        rw [hmailbox, htop]
        exact lt_top_iff_ne_top.mpr (distance_append_timeout s.mailbox)
      · have hsame : distance t.mailbox = distance s.mailbox := by
          rw [hmailbox]
          exact distance_append (Or.inl htop)
        refine Or.inr ⟨hsame, ?_, ?_⟩
        · rw [helpful, helpful, hsame]
        · simp [helpful, htop]
    | handle =>
      rcases h.handle ht with hg | ⟨hlooking, hdistance⟩
      · exact Or.inl hg
      · refine Or.inr ⟨hlooking, ?_⟩
        by_cases htop : distance t.mailbox = ⊤
        · have htop' : distance s.mailbox = ⊤ := by rw [hdistance, htop, top_add]
          refine Or.inr ⟨htop.trans htop'.symm, ?_, ?_⟩
          · rw [helpful, helpful, htop, htop']
          · simp [helpful, htop']
        · left
          rw [hdistance]
          exact ENat.lt_add_one_iff htop |>.mpr le_rfl

/-- In the identifying behaviour a timeout is scheduled or waits in the mailbox; with timers that
fire and messages that are handled in the end, another request is sent or an actor identified. -/
theorem retry_never_stalls (path : String) (onDeathPact : Directive) (s : State Double ActorRef)
    (h : Transition.Reachable (step path onDeathPact) (.initial path) s)
    (hs : s.behavior = some .identifying) :
    (0 < s.scheduled ∨ .receiveTimeout ∈ s.mailbox) ∧
      ∀ x : Transition.Execution (step path onDeathPact), x.WeaklyFair .fire →
        x.WeaklyFair .handle → ∀ n, x.state n = s → ∃ m ≥ n, Retried s (x.state m) := by
  have halive := alive_of_reachable h
  refine ⟨halive hs, fun x hfire hhandle n hn => ?_⟩
  refine (helps s).reaches x (fun t _ => ?_) (n := n) ?_
  · rw [helpful]
    split
    · exact hfire
    · exact hhandle
  · rw [hn]
    exact ⟨hs, halive, le_rfl, le_rfl⟩

end Progress

/-- The calculator is found and lost, and the timer of the first request is still running. -/
theorem retry_never_stalls_lost :
    ∃ s : State ℤ ℕ, s.behavior = some .identifying ∧ s.scheduled = 2 ∧
      (0 < s.scheduled ∨ .receiveTimeout ∈ s.mailbox) ∧
      ∀ x : Transition.Execution (step "calculator" .stop), x.WeaklyFair .fire →
        x.WeaklyFair .handle → ∀ n, x.state n = s → ∃ m ≥ n, Retried s (x.state m) :=
  ⟨⟨some .identifying, [], 2, _⟩, rfl, rfl,
    retry_never_stalls "calculator" .stop _ ⟨[.arrive (.actorIdentity "calculator" (some 0)), .handle,
      .arrive (.terminated 0), .handle], rfl⟩ rfl⟩

end SbtExample.Calculator.LookupActor
