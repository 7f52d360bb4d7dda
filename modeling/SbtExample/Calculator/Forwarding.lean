import SbtExample.Calculator.Lookup
import SbtExample.Calculator.Losses

/-! # Operations through the lookup actor

The actor has found a calculator that never terminates. An operation is accepted when it is
forwarded; an unmatched result restarts the actor, which takes no results until it has found the
calculator again.
-/
set_option autoImplicit false
set_option maxHeartbeats 250000

namespace SbtExample.Calculator.LookupActor
open Bag

section Forwarding
variable {Double ActorRef : Type}

/-! ## The actor and its calculator -/

/-- Requests, operations and results are on their way; a result carries the position of its
operation among the accepted ones, which no step reads. -/
structure Exchange (Double ActorRef : Type) where
  behavior : Option (Behavior ActorRef)
  requests : ℕ
  scheduled : ℕ
  accepted : List (MathOp Double)
  calculating : List (ℕ × MathOp Double)
  results : List (ℕ × MathResult Double)
  logged : List (ℕ × MathResult Double)

/-- The actor has found `calculator`; late answers and timers may be left of its search. -/
def Exchange.found (calculator : ActorRef) (requests scheduled : ℕ) : Exchange Double ActorRef :=
  ⟨some (.active calculator), requests, scheduled, [], [], [], []⟩

inductive Exchange.Label (Double : Type)
  | operation (op : MathOp Double)
  | compute (k : ℕ)
  | deliver (k : ℕ)
  | reply
  | fire

/-- An effect of handling a message; `i` is the operation that a result belongs to. -/
def Exchange.perform (i : ℕ) (s : Exchange Double ActorRef) :
    Effect Double ActorRef → Exchange Double ActorRef
  | .identify _ => { s with requests := s.requests + 1 }
  | .scheduleOnce => { s with scheduled := s.scheduled + 1 }
  | .tell _ op =>
    { s with
      accepted := s.accepted ++ [op]
      calculating := (s.accepted.length, op) :: s.calculating }
  | .logResult r => { s with logged := (i, r) :: s.logged }
  | .watch _ | .info _ | .error _ => s

variable [DecidableEq ActorRef]

def Exchange.handle (path : String) (onDeathPact : Directive) (s : Exchange Double ActorRef) (i : ℕ)
    (m : Message Double ActorRef) : Exchange Double ActorRef :=
  match s.behavior with
  | none => s
  | some b =>
    let (b', effects) := LookupActor.handle path onDeathPact b m
    effects.foldl (Exchange.perform i) { s with behavior := b' }

def Exchange.step (div : Double → Int32 → Double) (path : String) (onDeathPact : Directive)
    (calculator : ActorRef) (s : Exchange Double ActorRef) :
    Exchange.Label Double → Option (Exchange Double ActorRef)
  | .operation op => some (s.handle path onDeathPact 0 (.mathOp op))
  | .compute k => (pick s.calculating k).map fun (x, rest) =>
      { s with
        calculating := rest
        results := (x.1, CalculatorActor.receive div x.2) :: s.results }
  | .deliver k => (pick s.results k).map fun (x, rest) =>
      { s with results := rest }.handle path onDeathPact x.1 (.mathResult x.2)
  | .reply =>
    match s.requests with
    | 0 => none
    | n + 1 => some ({ s with requests := n }.handle path onDeathPact 0
        (.actorIdentity path (some calculator)))
  | .fire =>
    match s.scheduled with
    | 0 => none
    | n + 1 => some ({ s with scheduled := n }.handle path onDeathPact 0 .receiveTimeout)

end Forwarding

/-! ## What becomes of an operation -/

section Moves
variable {Double ActorRef : Type} {div : Double → Int32 → Double} {calculator : ActorRef}
  {s t : Exchange Double ActorRef}

/-- The operations and results that are not lost, each with its result. -/
def Exchange.carried (div : Double → Int32 → Double) (s : Exchange Double ActorRef) :
    List (ℕ × MathResult Double) :=
  s.calculating.map (fun x => (x.1, CalculatorActor.receive div x.2)) ++ (s.results ++ s.logged)

/-- The results that the active behaviour has a case for. -/
def isLogged : MathResult Double → Bool
  | .add _ _ _ | .subtract _ _ _ => true
  | .multiplication _ _ _ | .division _ _ _ => false

/-- The result of an addition or subtraction is taken from the mailbox before the calculator is
found again. -/
def Exchange.Swallows (s : Exchange Double ActorRef) : Exchange.Label Double → Prop
  | .deliver k => s.behavior = some .identifying ∧
      ∃ x : ℕ × MathResult Double, s.results[k]? = some x ∧ isLogged x.2 = true
  | _ => False

def Exchange.Known (calculator : ActorRef) (s : Exchange Double ActorRef) : Prop :=
  s.behavior = some .identifying ∨ s.behavior = some (.active calculator)

/-- What a step does to the operations and results that are not lost. -/
inductive Exchange.Moves (div : Double → Int32 → Double) (s t : Exchange Double ActorRef)
    (swallows : Prop) : Prop
  | keep (accepted : t.accepted = s.accepted) (carried : (t.carried div).Perm (s.carried div))
      (unswallowed : ¬ swallows)
  | accept (op : MathOp Double) (accepted : t.accepted = s.accepted ++ [op])
      (carried : (t.carried div).Perm
        ((s.accepted.length, CalculatorActor.receive div op) :: s.carried div))
      (unswallowed : ¬ swallows)
  | lose (x : ℕ × MathResult Double) (accepted : t.accepted = s.accepted)
      (carried : (s.carried div).Perm (x :: t.carried div))
      (swallowed : swallows ↔ isLogged x.2 = true)

theorem Exchange.Moves.of_eq {s' : Exchange Double ActorRef} {swallows : Prop}
    (h : s'.Moves div t swallows) (haccepted : s'.accepted = s.accepted)
    (hcarried : s'.carried div = s.carried div) : s.Moves div t swallows := by
  cases h with
  | keep accepted carried hno => exact .keep (accepted.trans haccepted) (hcarried ▸ carried) hno
  | accept op accepted carried hno =>
    exact .accept op (haccepted ▸ accepted) (haccepted ▸ hcarried ▸ carried) hno
  | lose x accepted carried hiff =>
    exact .lose x (accepted.trans haccepted) (hcarried ▸ carried) hiff

theorem pick_carried (div : Double → Int32 → Double) {k : ℕ} {x : ℕ × MathResult Double}
    {rest : List (ℕ × MathResult Double)} (hp : pick s.results k = some (x, rest)) :
    (s.carried div).Perm (x :: { s with results := rest }.carried div) :=
  (((pick_perm hp).append_right s.logged).append_left _).trans List.perm_middle

theorem moves_compute {k : ℕ} {x : ℕ × MathOp Double} {rest : List (ℕ × MathOp Double)}
    (hp : pick s.calculating k = some (x, rest)) :
    s.Moves div { s with
      calculating := rest
      results := (x.1, CalculatorActor.receive div x.2) :: s.results } False := by
  refine .keep rfl ?_ id
  have hperm := (pick_map (fun x => (x.1, CalculatorActor.receive div x.2)) hp).append_right
    (s.results ++ s.logged)
  exact List.perm_middle.trans hperm.symm

structure Carried (div : Double → Int32 → Double) (calculator : ActorRef)
    (s : Exchange Double ActorRef) : Prop where
  known : s.Known calculator
  value : ∀ x ∈ s.carried div, ∃ op, s.accepted[x.1]? = some op ∧
    x.2 = CalculatorActor.receive div op
  nodup : ((s.carried div).map Prod.fst).Nodup

/-- The result of an accepted addition or subtraction can no longer be handled. -/
def Exchange.Lost (div : Double → Int32 → Double) (s : Exchange Double ActorRef) : Prop :=
  ∃ (i : ℕ) (op : MathOp Double), s.accepted[i]? = some op ∧ op.isSent = false ∧
    i ∉ (s.carried div).map Prod.fst

theorem isLogged_receive (op : MathOp Double) :
    isLogged (CalculatorActor.receive div op) = !op.isSent := by
  cases op <;> rfl

theorem Carried.lt (hs : Carried div calculator s) {i : ℕ}
    (h : i ∈ (s.carried div).map Prod.fst) : i < s.accepted.length := by
  obtain ⟨x, hx, rfl⟩ := List.mem_map.mp h
  obtain ⟨op, hop, -⟩ := hs.value x hx
  exact (List.getElem?_eq_some_iff.mp hop).1

theorem Carried.moves (hs : Carried div calculator s) (ht : t.Known calculator) {swallows : Prop}
    (h : s.Moves div t swallows) :
    Carried div calculator t ∧ (t.Lost div ↔ s.Lost div ∨ swallows) := by
  cases h with
  | keep accepted carried hno =>
    have htags := carried.map Prod.fst
    refine ⟨⟨ht, fun x hx => ?_, htags.nodup_iff.mpr hs.nodup⟩, ?_⟩
    · rw [accepted]
      exact hs.value x (carried.mem_iff.mp hx)
    · simp only [Exchange.Lost, accepted, htags.mem_iff, hno, or_false]
  | accept op accepted carried hno =>
    have htags := carried.map Prod.fst
    rw [List.map_cons] at htags
    refine ⟨⟨ht, fun x hx => ?_, htags.nodup_iff.mpr (List.nodup_cons.mpr ⟨?_, hs.nodup⟩)⟩, ?_⟩
    · rw [accepted]
      rcases List.mem_cons.mp (carried.mem_iff.mp hx) with rfl | hx
      · exact ⟨op, List.getElem?_concat_length, rfl⟩
      · obtain ⟨op', hop', hvalue⟩ := hs.value x hx
        exact ⟨op', getElem?_concat_of_some _ hop', hvalue⟩
    · exact fun hmem => absurd (hs.lt hmem) (lt_irrefl _)
    · simp only [Exchange.Lost, accepted, htags.mem_iff, hno, or_false, List.mem_cons, not_or]
      constructor
      · rintro ⟨i, op', hop', hsent, hne, hmem⟩
        rcases getElem?_concat_cases hop' with hold | ⟨hi, -⟩
        · exact ⟨i, op', hold, hsent, hmem⟩
        · exact absurd hi hne
      · rintro ⟨i, op', hop', hsent, hmem⟩
        have hlt := (List.getElem?_eq_some_iff.mp hop').1
        exact ⟨i, op', getElem?_concat_of_some _ hop', hsent, hlt.ne, hmem⟩
  | lose x accepted carried hiff =>
    have htags := carried.map Prod.fst
    have hnodup := htags.nodup_iff.mp hs.nodup
    rw [List.map_cons] at htags hnodup
    obtain ⟨op, hop, hvalue⟩ := hs.value x (carried.mem_iff.mpr (List.mem_cons_self ..))
    rw [hvalue, isLogged_receive, Bool.not_eq_true'] at hiff
    refine ⟨⟨ht, fun y hy => ?_, (List.nodup_cons.mp hnodup).2⟩, ?_⟩
    · rw [accepted]
      exact hs.value y (carried.mem_iff.mpr (List.mem_cons_of_mem x hy))
    · simp only [Exchange.Lost, accepted, htags.mem_iff, List.mem_cons, not_or, hiff]
      constructor
      · rintro ⟨i, op', hop', hsent, hmem⟩
        by_cases hi : i = x.1
        · subst hi
          cases hop.symm.trans hop'
          exact Or.inr hsent
        · exact Or.inl ⟨i, op', hop', hsent, hi, hmem⟩
      · rintro (⟨i, op', hop', hsent, -, hmem⟩ | hsent)
        · exact ⟨i, op', hop', hsent, hmem⟩
        · exact ⟨x.1, op, hop, hsent, (List.nodup_cons.mp hnodup).1⟩

theorem carried_found (requests scheduled : ℕ) :
    Carried div calculator (.found calculator requests scheduled) where
  known := Or.inr rfl
  value _ h := nomatch h
  nodup := List.nodup_nil

/-- Each addition and subtraction has its result handled exactly once. -/
def Exchange.AllHandled (div : Double → Int32 → Double) (s : Exchange Double ActorRef) : Prop :=
  ∀ i op, s.accepted[i]? = some op → op.isSent = false →
    HandledOnce s.logged i (CalculatorActor.receive div op)

def Exchange.Delivered (s : Exchange Double ActorRef) : Prop :=
  s.calculating = [] ∧ s.results = []

theorem Carried.allHandled_iff (hs : Carried div calculator s) (h : s.Delivered) :
    s.AllHandled div ↔ ¬ s.Lost div := by
  have hcarried : s.carried div = s.logged := by rw [Exchange.carried, h.1, h.2]; rfl
  have honce : ∀ i op, s.accepted[i]? = some op →
      (HandledOnce s.logged i (CalculatorActor.receive div op) ↔ i ∈ s.logged.map Prod.fst) := by
    intro i op hop
    refine handledOnce_iff (hcarried ▸ hs.nodup) fun x hx hi => ?_
    obtain ⟨op', hop', hvalue⟩ := hs.value x (hcarried ▸ hx)
    subst hi
    cases hop.symm.trans hop'
    exact hvalue
  rw [Exchange.Lost, hcarried]
  constructor
  · rintro hall ⟨i, op, hop, hsent, hmem⟩
    exact hmem ((honce i op hop).mp (hall i op hop hsent))
  · intro hlost i op hop hsent
    rw [honce i op hop]
    by_contra hmem
    exact hlost ⟨i, op, hop, hsent, hmem⟩

/-! ## The messages -/

variable [DecidableEq ActorRef] {path : String} {onDeathPact : Directive}

theorem handle_of_behavior {b : Behavior ActorRef} (h : s.behavior = some b) (i : ℕ)
    (m : Message Double ActorRef) :
    s.handle path onDeathPact i m =
      (LookupActor.handle path onDeathPact b m).2.foldl (Exchange.perform i)
        { s with behavior := (LookupActor.handle path onDeathPact b m).1 } := by
  rw [Exchange.handle, h]

theorem moves_operation (hs : s.Known calculator) (op : MathOp Double) :
    (s.handle path onDeathPact 0 (.mathOp op)).Known calculator ∧
      s.Moves div (s.handle path onDeathPact 0 (.mathOp op)) False := by
  rcases hs with hb | hb
  · rw [handle_of_behavior hb]
    exact ⟨Or.inl rfl, .keep rfl (List.Perm.refl _) id⟩
  · rw [handle_of_behavior hb]
    exact ⟨Or.inr rfl, .accept op rfl (List.Perm.refl _) id⟩

/-- Answers to requests and timeouts, whatever the behaviour, leave the operations alone. -/
theorem moves_search (div : Double → Int32 → Double) (path : String) (onDeathPact : Directive)
    (hs : s.Known calculator) {m : Message Double ActorRef}
    (hm : m = .receiveTimeout ∨ m = .actorIdentity path (some calculator)) :
    (s.handle path onDeathPact 0 m).Known calculator ∧
      s.Moves div (s.handle path onDeathPact 0 m) False := by
  rcases hs with hb | hb <;> rw [handle_of_behavior hb]
  · rcases hm with rfl | rfl
    · exact ⟨Or.inl rfl, .keep rfl (List.Perm.refl _) id⟩
    · simp only [LookupActor.handle, receive, identifying, if_true]
      exact ⟨Or.inr rfl, .keep rfl (List.Perm.refl _) id⟩
  · rcases hm with rfl | rfl
    · exact ⟨Or.inr rfl, .keep rfl (List.Perm.refl _) id⟩
    · exact ⟨Or.inr rfl, .keep rfl (List.Perm.refl _) id⟩

theorem moves_deliver (hs : s.Known calculator) {k : ℕ} {x : ℕ × MathResult Double}
    {rest : List (ℕ × MathResult Double)} (hp : pick s.results k = some (x, rest)) :
    ({ s with results := rest }.handle path onDeathPact x.1 (.mathResult x.2)).Known calculator ∧
      s.Moves div ({ s with results := rest }.handle path onDeathPact x.1 (.mathResult x.2))
        (s.Swallows (.deliver k)) := by
  have hlose := pick_carried div hp
  have hk : s.results[k]? = some x := (pick_eq_some hp).1
  obtain ⟨i, r⟩ := x
  rcases hs with hb | hb
  · have hb' : { s with results := rest }.behavior = some .identifying := hb
    rw [handle_of_behavior hb']
    refine ⟨Or.inl rfl, .lose (i, r) rfl hlose ?_⟩
    simp [Exchange.Swallows, hb, hk]
  · have hb' : { s with results := rest }.behavior = some (.active calculator) := hb
    have hunswallowed : ¬ s.Swallows (.deliver k) := by simp [Exchange.Swallows, hb]
    have hlogged : (s.calculating.map (fun x => (x.1, CalculatorActor.receive div x.2)) ++
        (rest ++ (i, r) :: s.logged)).Perm (s.carried div) :=
      ((List.perm_middle.append_left _).trans List.perm_middle).trans hlose.symm
    rw [handle_of_behavior hb']
    cases r with
    | add n1 n2 r => exact ⟨Or.inr rfl, .keep rfl hlogged hunswallowed⟩
    | subtract n1 n2 r => exact ⟨Or.inr rfl, .keep rfl hlogged hunswallowed⟩
    | multiplication n1 n2 r =>
      exact ⟨Or.inl rfl, .lose _ rfl hlose (iff_of_false hunswallowed (by simp [isLogged]))⟩
    | division n1 n2 r =>
      exact ⟨Or.inl rfl, .lose _ rfl hlose (iff_of_false hunswallowed (by simp [isLogged]))⟩

theorem moves_step (hs : s.Known calculator) {e : Exchange.Label Double}
    (h : s.step div path onDeathPact calculator e = some t) :
    t.Known calculator ∧ s.Moves div t (s.Swallows e) := by
  cases e with
  | operation op =>
    cases h
    exact moves_operation hs op
  | compute k =>
    obtain ⟨⟨x, rest⟩, hp, rfl⟩ := Option.map_eq_some_iff.mp h
    exact ⟨hs, moves_compute hp⟩
  | deliver k =>
    obtain ⟨⟨x, rest⟩, hp, rfl⟩ := Option.map_eq_some_iff.mp h
    exact moves_deliver hs hp
  | reply =>
    rw [Exchange.step] at h
    split at h
    next => cases h
    next n hn =>
      cases h
      have hmoves := moves_search div path onDeathPact
        (s := { s with requests := n }) hs (Or.inr rfl)
      exact hmoves.imp_right fun hm => hm.of_eq rfl rfl
  | fire =>
    rw [Exchange.step] at h
    split at h
    next => cases h
    next n hn =>
      cases h
      have hmoves := moves_search div path onDeathPact
        (s := { s with scheduled := n }) hs (Or.inl rfl)
      exact hmoves.imp_right fun hm => hm.of_eq rfl rfl

/-! ## Runs -/

theorem carried_of_reachable {requests scheduled : ℕ}
    (h : Transition.Reachable (Exchange.step div path onDeathPact calculator)
      (.found calculator requests scheduled) s) : Carried div calculator s := by
  refine h.invariant (carried_found requests scheduled) fun s e t _ hs ht => ?_
  obtain ⟨hknown, hmoves⟩ := moves_step hs.known ht
  exact (hs.moves hknown hmoves).1

theorem lookup_allHandled_iff (div : Double → Int32 → Double) (path : String)
    (onDeathPact : Directive) (calculator : ActorRef) (requests scheduled : ℕ)
    (es : List (Exchange.Label Double)) (s : Exchange Double ActorRef)
    (h : Transition.run (Exchange.step div path onDeathPact calculator)
      (.found calculator requests scheduled) es = some s) (hdelivered : s.Delivered) :
    s.AllHandled div ↔ Transition.Along (Exchange.step div path onDeathPact calculator)
      (fun s e => ¬ s.Swallows e) (.found calculator requests scheduled) es := by
  rw [(carried_of_reachable ⟨es, h⟩).allHandled_iff hdelivered]
  refine (Transition.along_iff_of_step ?_ (fun s e t hr ht => ?_) es s h).symm
  · rintro ⟨i, op, hop, -⟩
    cases hop
  · have hs := carried_of_reachable hr
    obtain ⟨hknown, hmoves⟩ := moves_step hs.known ht
    exact (hs.moves hknown hmoves).2

end Moves

end SbtExample.Calculator.LookupActor

/-! ## Both actors -/

namespace SbtExample.Calculator
open LookupActor

/-- In every run that delivers all messages, the results that the actors have a case for are handled
exactly once, if and only if no step takes one away: at the creation actor the termination of a
calculator before it has processed its operation, at the lookup actor a result that comes while the
actor looks for the calculator again. -/
theorem results_handled_iff {Double : Type} (ActorRef : Type) [DecidableEq ActorRef]
    (div : Double → Int32 → Double) :
    (∀ (es : List (Calculator.Label Double)) (s : System Double),
      Transition.run (Calculator.step div) .initial es = some s → s.Delivered →
        (s.AllHandled div ↔
          Transition.Along (Calculator.step div) (fun s e => ¬ s.Drops e) .initial es)) ∧
    ∀ (path : String) (onDeathPact : Directive) (calculator : ActorRef) (requests scheduled : ℕ)
      (es : List (Exchange.Label Double)) (s : Exchange Double ActorRef),
      Transition.run (Exchange.step div path onDeathPact calculator)
        (.found calculator requests scheduled) es = some s → s.Delivered →
        (s.AllHandled div ↔ Transition.Along (Exchange.step div path onDeathPact calculator)
          (fun s e => ¬ s.Swallows e) (.found calculator requests scheduled) es) :=
  ⟨creation_allHandled_iff div, lookup_allHandled_iff div⟩

def quotient (a : ℤ) (b : Int32) : ℤ := a / b.toInt

theorem results_handled_iff_one :
    (∃ s, Transition.run (Calculator.step quotient) .initial
        [.operation (.multiply 2 3), .process 0, .deliver 0, .terminate 0] = some s ∧
      s.AllHandled quotient) ∧
    ∃ s : Exchange ℤ ℕ, Transition.run (Exchange.step quotient "calculator" .restart 0)
        (.found 0 0 0) [.operation (.add 2 3), .compute 0, .deliver 0] = some s ∧
      s.AllHandled quotient := by
  constructor
  · have h := (results_handled_iff ℕ quotient).1
      [.operation (.multiply 2 3), .process 0, .deliver 0, .terminate 0] _ rfl ⟨rfl, by decide⟩
    refine ⟨_, rfl, h.mpr ⟨id, fun t ht => ?_⟩⟩
    cases ht
    refine ⟨id, fun t ht => ?_⟩
    cases ht
    refine ⟨id, fun t ht => ?_⟩
    cases ht
    refine ⟨?_, fun t ht => trivial⟩
    rintro ⟨c, i, op, hc, hmem, -⟩
    cases hc
    cases hmem
  · have h := (results_handled_iff ℕ quotient).2 "calculator" .restart 0 0 0
      [.operation (.add 2 3), .compute 0, .deliver 0] _ rfl ⟨rfl, rfl⟩
    refine ⟨_, rfl, h.mpr ⟨id, fun t ht => ?_⟩⟩
    cases ht
    refine ⟨id, fun t ht => ?_⟩
    cases ht
    refine ⟨?_, fun t ht => trivial⟩
    rintro ⟨hb, -⟩
    cases hb

/-- An addition costs a multiplication its result at the creation actor, and the other way round at
the lookup actor. -/
theorem results_lost :
    (∃ s, Transition.run (Calculator.step quotient) .initial
        [.operation (.add 1 1), .operation (.multiply 2 3), .process 0, .deliver 0, .terminate 0,
          .terminate 1] = some s ∧ s.Delivered ∧ ¬ s.AllHandled quotient) ∧
    ∃ s : Exchange ℤ ℕ, Transition.run (Exchange.step quotient "calculator" .restart 0)
        (.found 0 0 0) [.operation (.multiply 2 3), .operation (.add 1 1), .compute 1, .compute 0,
          .deliver 1, .deliver 0] = some s ∧ s.Delivered ∧ ¬ s.AllHandled quotient := by
  constructor
  · refine ⟨_, rfl, ⟨rfl, ?_⟩, fun h => ?_⟩
    · decide
    · cases h 1 (.multiply 2 3) rfl rfl
  · refine ⟨_, rfl, ⟨rfl, rfl⟩, fun h => ?_⟩
    cases h 1 (.add 1 1) rfl rfl

end SbtExample.Calculator
