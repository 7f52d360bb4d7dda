import SbtExample.Calculator.Creation
import SbtExample.Calculator.Forwarding
import SbtExample.Foundations.MachineInt
import SbtExample.Foundations.Slots

/-! # The applications (`CreationApplication.scala`, `LookupApplication.scala`)

Each application sends its actor an operation every second, with random operands. It draws only kinds
of operations whose results its actor has a case for, and operands whose results fit: neither actor
is ever restarted, so that no result is lost there. The messages themselves are taken to arrive, and
the remote calculator to be there and to stay.
-/
set_option autoImplicit false
set_option maxHeartbeats 250000

namespace SbtExample.Calculator
open Bag MachineInt Slots Transition

/-! ## What they send -/

/-- What `Random.nextInt(bound)` can return. -/
abbrev NextInt (bound : Int32) : Type := { r : Int32 // 0 ≤ r ∧ r < bound }

section Operations
variable {Double : Type}

/-- The body of the schedule; only the operands of the operation that is sent are drawn. -/
def CreationApplication.send (toDouble : Int32 → Double) (coin : NextInt 100)
    (nbr1 nbr2 : NextInt 20) (dividend : NextInt 10000) (divisor : NextInt 99) : MathOp Double :=
  if coin.1 % 2 = 0 then .multiply nbr1.1 nbr2.1
  else .divide (toDouble dividend.1) (divisor.1 + 1)

def LookupApplication.send (coin nbr1 nbr2 : NextInt 100) : MathOp Double :=
  if coin.1 % 2 = 0 then .add nbr1.1 nbr2.1 else .subtract nbr1.1 nbr2.1

def CreationApplication.Sends (toDouble : Int32 → Double) (op : MathOp Double) : Prop :=
  ∃ coin nbr1 nbr2 dividend divisor, op = send toDouble coin nbr1 nbr2 dividend divisor

def LookupApplication.Sends (op : MathOp Double) : Prop :=
  ∃ coin nbr1 nbr2, op = send coin nbr1 nbr2

/-- The value in `ℤ`: nothing wraps, and no divisor is zero. -/
def Exact (div : Double → Int32 → Double) : MathOp Double → MathResult Double → Prop
  | .add n1 n2, .add n1' n2' r => n1' = n1 ∧ n2' = n2 ∧ r.toInt = n1.toInt + n2.toInt
  | .subtract n1 n2, .subtract n1' n2' r => n1' = n1 ∧ n2' = n2 ∧ r.toInt = n1.toInt - n2.toInt
  | .multiply n1 n2, .multiplication n1' n2' r =>
    n1' = n1 ∧ n2' = n2 ∧ r.toInt = n1.toInt * n2.toInt
  | .divide n1 n2, .division n1' n2' r => n1' = n1 ∧ n2' = n2 ∧ 0 < n2.toInt ∧ r = div n1 n2
  | _, _ => False

variable {toDouble : Int32 → Double} {op : MathOp Double}

theorem NextInt.toInt_bounds {bound : Int32} (r : NextInt bound) :
    0 ≤ r.1.toInt ∧ r.1.toInt < bound.toInt :=
  ⟨nonneg_iff.mp r.2.1, Int32.lt_iff_toInt_lt.mp r.2.2⟩

theorem exact_of_creation (div : Double → Int32 → Double)
    (h : CreationApplication.Sends toDouble op) :
    op.isSent = true ∧ Exact div op (CalculatorActor.receive div op) := by
  obtain ⟨coin, nbr1, nbr2, dividend, divisor, rfl⟩ := h
  unfold CreationApplication.send
  split
  · have ⟨h1, h1'⟩ := nbr1.toInt_bounds
    have ⟨h2, h2'⟩ := nbr2.toInt_bounds
    have hbound : (20 : Int32).toInt = 20 := by decide
    have hproduct : nbr1.1.toInt * nbr2.1.toInt ≤ 20 * 20 :=
      mul_le_mul (by omega) (by omega) h2 (by omega)
    have hnonneg := mul_nonneg h1 h2
    exact ⟨rfl, rfl, rfl, toInt_mul (by omega) (by omega)⟩
  · have ⟨h1, h1'⟩ := divisor.toInt_bounds
    have hbound : (99 : Int32).toInt = 99 := by decide
    refine ⟨rfl, rfl, rfl, ?_, rfl⟩
    rw [toInt_succ (b := 99) (by omega)]
    omega

theorem exact_of_lookup (div : Double → Int32 → Double) (h : LookupApplication.Sends op) :
    op.isSent = false ∧ Exact div op (CalculatorActor.receive div op) := by
  obtain ⟨coin, nbr1, nbr2, rfl⟩ := h
  have ⟨h1, h1'⟩ := nbr1.toInt_bounds
  have ⟨h2, h2'⟩ := nbr2.toInt_bounds
  have hbound : (100 : Int32).toInt = 100 := by decide
  unfold LookupApplication.send
  split
  · exact ⟨rfl, rfl, rfl, toInt_add (by omega) (by omega)⟩
  · exact ⟨rfl, rfl, rfl, toInt_sub (by omega) (by omega)⟩

end Operations

/-! ## The creation application -/

section Creation
variable {Double : Type} {div : Double → Int32 → Double} {toDouble : Int32 → Double}
  {s t : System Double}

def Label.op? : Label Double → Option (MathOp Double)
  | .operation op => some op
  | _ => none

def operations (es : List (Label Double)) : List (MathOp Double) := es.filterMap Label.op?

def Child.work (c : Child Double) : ℕ :=
  2 * c.mailbox.length + if c.status = .terminated then 0 else 1

/-- The steps that are left, but for those of new operations. -/
def System.work (s : System Double) : ℕ := (s.children.map Child.work).sum + s.answers.length

def Label.cost : Label Double → ℕ
  | .operation _ => 4
  | _ => 0

theorem Child.work_stop (c : Child Double) : c.stop.work = c.work := by
  rcases c with ⟨mailbox, received, _ | _ | _⟩ <;> rfl

theorem work_step (s : System Double) (e : Label Double) (t : System Double)
    (h : step div s e = some t) : t.work + 1 ≤ s.work + e.cost := by
  cases e with
  | operation op =>
    cases h
    simp only [System.work, System.operation, List.map_append, List.sum_append, List.map_singleton,
      List.sum_singleton, Child.work, List.length_singleton, reduceCtorEq, if_false, Label.cost]
    omega
  | process child =>
    obtain ⟨i, op, rest, received, status, hchild, hstatus, rfl⟩ := process_eq_some h
    have hsum := sum_map_set (b := ⟨rest, received ++ [(i, op)], status⟩) Child.work hchild
    simp only [Child.work, List.length_cons] at hsum
    simp only [System.work, List.length_cons, Label.cost]
    omega
  | deliver k =>
    obtain ⟨a, rest, hp, ⟨-, rfl⟩ | ⟨-, rfl⟩⟩ := deliver_eq_some h
    · have hlen := pick_length hp
      simp only [System.work, map_modify_eq Child.work_stop, Label.cost]
      omega
    · have hlen := pick_length hp
      have hstop : Child.work ∘ Child.stop = (Child.work : Child Double → ℕ) :=
        funext Child.work_stop
      simp only [System.work, List.map_map, hstop, Label.cost]
      omega
  | terminate child =>
    obtain ⟨mailbox, received, hchild, rfl⟩ := terminate_eq_some h
    have hsum := sum_map_set (b := ⟨[], received, .terminated⟩) Child.work hchild
    have hbefore : 1 ≤ (⟨mailbox, received, .stopping⟩ : Child Double).work := by simp [Child.work]
    have hafter : (⟨[], received, .terminated⟩ : Child Double).work = 0 := rfl
    simp only [System.work, Label.cost]
    omega

theorem accepted_step {e : Label Double} (h : step div s e = some t) :
    t.accepted = s.accepted ++ e.op?.toList := by
  cases e with
  | operation op =>
    cases h
    rfl
  | process child =>
    obtain ⟨i, op, rest, received, status, -, -, rfl⟩ := process_eq_some h
    exact (List.append_nil _).symm
  | deliver k =>
    obtain ⟨a, rest, -, ⟨-, rfl⟩ | ⟨-, rfl⟩⟩ := deliver_eq_some h
    · exact (List.append_nil _).symm
    · exact (List.append_nil _).symm
  | terminate child =>
    obtain ⟨mailbox, received, -, rfl⟩ := terminate_eq_some h
    exact (List.append_nil _).symm

theorem accepted_run (es : List (Label Double)) (s : System Double)
    (h : run (step div) .initial es = some s) : s.accepted = operations es := by
  refine run_induction (P := fun es s => s.accepted = operations es) rfl ?_ es s h
  intro es s e t _ ih ht
  rw [accepted_step ht, ih, operations, operations, List.filterMap_append]
  cases he : e.op? <;> simp [he]

theorem cost_operations (es : List (Label Double)) :
    (es.map Label.cost).sum = 4 * (operations es).length := by
  induction es with
  | nil => rfl
  | cons e es ih =>
    rw [List.map_cons, List.sum_cons, ih]
    cases e with
    | operation op =>
      simp only [operations, List.filterMap_cons, Label.op?, Label.cost, List.length_cons]
      omega
    | process child => exact Nat.zero_add _
    | deliver k => exact Nat.zero_add _
    | terminate child => exact Nat.zero_add _

theorem settled_of_terminated (hanswers : s.answers = [])
    (hchildren : ∀ c ∈ s.children, c.status = .terminated) : Settled div s := by
  intro e he
  cases e with
  | operation op => exact absurd rfl (he op)
  | process child =>
    refine Option.eq_none_iff_forall_ne_some.mpr fun t ht => ?_
    obtain ⟨i, op, rest, received, status, hchild, hstatus, -⟩ := process_eq_some ht
    exact hstatus (hchildren _ (List.mem_of_getElem? hchild))
  | deliver k => simp [step, System.deliver, pick, hanswers]
  | terminate child =>
    refine Option.eq_none_iff_forall_ne_some.mpr fun t ht => ?_
    obtain ⟨mailbox, received, hchild, -⟩ := terminate_eq_some ht
    cases hchildren _ (List.mem_of_getElem? hchild)

theorem creation_drains (es : List (Label Double)) (s : System Double)
    (hes : ∀ op ∈ operations es, CreationApplication.Sends toDouble op)
    (h : run (step div) .initial es = some s) :
    es.length ≤ 4 * (operations es).length ∧
    (Settled div s → (∀ c ∈ s.children, c.status = .terminated) ∧
      ∀ i op, (operations es)[i]? = some op →
        ∃ r, HandledOnce s.log i r ∧ Exact div op r) := by
  have hlength := run_length_le_cost System.work Label.cost (fun s e t _ => work_step s e t) es s h
  have hinitial : (System.initial : System Double).work = 0 := rfl
  have hi : Inv div s := inv_of_run (fun op hop =>
    (exact_of_creation div (hes op (List.mem_filterMap.mpr ⟨_, hop, rfl⟩))).1) h
  rw [cost_operations] at hlength
  refine ⟨by omega, fun hsettled => ⟨fun c hc => ?_, fun i op hop => ?_⟩⟩
  · obtain ⟨i, hc⟩ := List.mem_iff_getElem?.mp hc
    obtain ⟨op, hop, -⟩ := hi.stage_of_child hc
    exact (hi.settled hsettled hop hc).2
  · have hexact := exact_of_creation div (hes op (List.mem_of_getElem? hop))
    rw [← accepted_run es s h] at hop
    obtain ⟨c, hc, -⟩ := hi.stage i op hop
    exact ⟨_, ((placed_of_reachable ⟨es, h⟩).handledOnce_iff hop).mpr
      (hi.settled hsettled hop hc).1, hexact.2⟩

end Creation

/-! ## The lookup application -/

namespace LookupActor

section Lookup
variable {Double ActorRef : Type} {div : Double → Int32 → Double} {calculator : ActorRef}
  {s t : Exchange Double ActorRef}

/-- The actor as its constructor leaves it. -/
def Exchange.initial (path : String) : Exchange Double ActorRef :=
  let (b, effects) := started path
  effects.foldl (Exchange.perform 0) ⟨b, 0, 0, [], [], [], []⟩

def Exchange.Label.op? : Exchange.Label Double → Option (MathOp Double)
  | .operation op => some op
  | _ => none

def Exchange.Label.fires : Exchange.Label Double → Bool
  | .fire => true
  | _ => false

def Exchange.work (s : Exchange Double ActorRef) : ℕ :=
  2 * s.calculating.length + s.results.length + s.requests + s.scheduled

/-- A timer that fires may start another one, and a request. -/
def Exchange.Label.cost : Exchange.Label Double → ℕ
  | .operation _ => 3
  | .fire => 2
  | _ => 0

/-- The actor looks for the calculator, with a timer running, or has found it; it has forwarded only
operations whose results it has a case for, and none before. -/
structure Steady (div : Double → Int32 → Double) (calculator : ActorRef)
    (s : Exchange Double ActorRef) : Prop where
  carried : Carried div calculator s
  kept : ¬ s.Lost div
  searching : s.behavior = some .identifying → s.accepted = [] ∧ 1 ≤ s.scheduled
  drawn : ∀ op ∈ s.accepted, LookupApplication.Sends op

theorem steady_initial (path : String) :
    Steady div calculator (Exchange.initial path : Exchange Double ActorRef) where
  carried :=
    { known := .inl rfl
      value := fun _ h => nomatch h
      nodup := List.nodup_nil }
  kept := fun ⟨_, _, hop, _⟩ => nomatch hop
  searching _ := ⟨rfl, le_rfl⟩
  drawn _ h := nomatch h

/-- What the steps do in such a state. -/
inductive Exchange.Turn (div : Double → Int32 → Double) (calculator : ActorRef)
    (s : Exchange Double ActorRef) : Exchange.Label Double → Exchange Double ActorRef → Prop
  | refuse (op : MathOp Double) (hb : s.behavior = some .identifying) : Turn div calculator s
      (.operation op) { s with behavior := some .identifying }
  | forward (op : MathOp Double) (hb : s.behavior = some (.active calculator)) :
      Turn div calculator s (.operation op)
        { s with
          behavior := some (.active calculator)
          accepted := s.accepted ++ [op]
          calculating := (s.accepted.length, op) :: s.calculating }
  | compute (k : ℕ) (x : ℕ × MathOp Double) (rest : List (ℕ × MathOp Double))
      (hp : pick s.calculating k = some (x, rest)) : Turn div calculator s (.compute k)
        { s with
          calculating := rest
          results := (x.1, CalculatorActor.receive div x.2) :: s.results }
  | log (k : ℕ) (x : ℕ × MathResult Double) (rest : List (ℕ × MathResult Double))
      (hp : pick s.results k = some (x, rest)) (hb : s.behavior = some (.active calculator)) :
      Turn div calculator s (.deliver k)
        { s with
          behavior := some (.active calculator)
          results := rest
          logged := x :: s.logged }
  | identify (n : ℕ) (hn : s.requests = n + 1) : Turn div calculator s .reply
      { s with behavior := some (.active calculator), requests := n }
  | retry (n : ℕ) (hn : s.scheduled = n + 1) (hb : s.behavior = some .identifying) :
      Turn div calculator s .fire
        { s with
          behavior := some .identifying
          requests := s.requests + 1
          scheduled := n + 1 }
  | expire (n : ℕ) (hn : s.scheduled = n + 1) (hb : s.behavior = some (.active calculator)) :
      Turn div calculator s .fire
        { s with behavior := some (.active calculator), scheduled := n }

/-- A result comes only when the actor has found the calculator, and has a case there. -/
theorem Steady.deliver (hs : Steady div calculator s) {k : ℕ} {x : ℕ × MathResult Double}
    {rest : List (ℕ × MathResult Double)} (hp : pick s.results k = some (x, rest)) :
    s.behavior = some (.active calculator) ∧ isLogged x.2 = true := by
  have hmem : x ∈ s.carried div :=
    List.mem_append_right _ (List.mem_append_left _ (pick_mem hp))
  obtain ⟨op, hop, hvalue⟩ := hs.carried.value x hmem
  refine ⟨hs.carried.known.resolve_left fun hb => ?_, ?_⟩
  · rw [(hs.searching hb).1] at hop
    cases hop
  · rw [hvalue, isLogged_receive, (exact_of_lookup div (hs.drawn op (List.mem_of_getElem? hop))).1]
    rfl

variable [DecidableEq ActorRef] {path : String} {onDeathPact : Directive}

theorem Steady.turn (hs : Steady div calculator s) {e : Exchange.Label Double}
    (h : s.step div path onDeathPact calculator e = some t) : s.Turn div calculator e t := by
  cases e with
  | operation op =>
    cases h
    rcases hs.carried.known with hb | hb
    · rw [handle_of_behavior hb]
      exact .refuse op hb
    · rw [handle_of_behavior hb]
      exact .forward op hb
  | compute k =>
    obtain ⟨⟨x, rest⟩, hp, rfl⟩ := Option.map_eq_some_iff.mp h
    exact .compute k x rest hp
  | deliver k =>
    obtain ⟨⟨x, rest⟩, hp, rfl⟩ := Option.map_eq_some_iff.mp h
    obtain ⟨hb, hlogged⟩ := hs.deliver hp
    have hb' : { s with results := rest }.behavior = some (.active calculator) := hb
    obtain ⟨i, r⟩ := x
    change s.Turn div calculator (.deliver k)
      ({ s with results := rest }.handle path onDeathPact i (.mathResult r))
    rw [handle_of_behavior hb']
    cases r with
    | add n1 n2 r => exact .log k _ rest hp hb
    | subtract n1 n2 r => exact .log k _ rest hp hb
    | multiplication n1 n2 r => cases hlogged
    | division n1 n2 r => cases hlogged
  | reply =>
    rw [Exchange.step] at h
    split at h
    next => cases h
    next n hn =>
      cases h
      have hknown : { s with requests := n }.Known calculator := hs.carried.known
      rcases hknown with hb | hb
      · rw [handle_of_behavior hb]
        simp only [LookupActor.handle, receive, identifying, if_true]
        exact .identify n hn
      · rw [handle_of_behavior hb]
        exact .identify n hn
  | fire =>
    rw [Exchange.step] at h
    split at h
    next => cases h
    next n hn =>
      cases h
      have hknown : { s with scheduled := n }.Known calculator := hs.carried.known
      rcases hknown with hb | hb
      · rw [handle_of_behavior hb]
        exact .retry n hn hb
      · rw [handle_of_behavior hb]
        exact .expire n hn hb

theorem Steady.work (hs : Steady div calculator s) {e : Exchange.Label Double}
    (h : s.step div path onDeathPact calculator e = some t) : t.work + 1 ≤ s.work + e.cost := by
  cases hs.turn h with
  | refuse op hb =>
    simp only [Exchange.work, Exchange.Label.cost]
    omega
  | forward op hb =>
    simp only [Exchange.work, Exchange.Label.cost, List.length_cons]
    omega
  | compute k x rest hp =>
    have hlen := pick_length hp
    simp only [Exchange.work, Exchange.Label.cost, List.length_cons]
    omega
  | log k x rest hp hb =>
    have hlen := pick_length hp
    simp only [Exchange.work, Exchange.Label.cost]
    omega
  | identify n hn | retry n hn hb | expire n hn hb =>
    simp only [Exchange.work, Exchange.Label.cost]
    omega

theorem Steady.step (hs : Steady div calculator s) {e : Exchange.Label Double}
    (he : ∀ op, e.op? = some op → LookupApplication.Sends op)
    (h : s.step div path onDeathPact calculator e = some t) : Steady div calculator t := by
  obtain ⟨hknown, hmoves⟩ : t.Known calculator ∧ s.Moves div t (s.Swallows e) :=
    moves_step hs.carried.known h
  obtain ⟨hcarried, hlost⟩ := hs.carried.moves hknown hmoves
  have hkept : ¬ s.Swallows e → ¬ t.Lost div := fun hswallows => by
    rw [hlost, not_or]
    exact ⟨hs.kept, hswallows⟩
  cases hs.turn h with
  | refuse op hb => exact ⟨hcarried, hkept id, fun _ => hs.searching hb, hs.drawn⟩
  | forward op hb =>
    refine ⟨hcarried, hkept id, nofun, fun op' hop' => ?_⟩
    rcases List.mem_append.mp hop' with hop' | hop'
    · exact hs.drawn op' hop'
    · rw [List.mem_singleton.mp hop']
      exact he op rfl
  | compute k x rest hp => exact ⟨hcarried, hkept id, hs.searching, hs.drawn⟩
  | log k x rest hp hb =>
    have hunswallowed : ¬ s.Swallows (.deliver k) := fun hswallows => by
      cases hb.symm.trans hswallows.1
    exact ⟨hcarried, hkept hunswallowed, nofun, hs.drawn⟩
  | identify n hn => exact ⟨hcarried, hkept id, nofun, hs.drawn⟩
  | retry n hn hb =>
    exact ⟨hcarried, hkept id, fun _ => ⟨(hs.searching hb).1, Nat.succ_pos n⟩, hs.drawn⟩
  | expire n hn hb => exact ⟨hcarried, hkept id, nofun, hs.drawn⟩

theorem cost_eq (es : List (Exchange.Label Double)) : (es.map Exchange.Label.cost).sum =
    3 * (es.filterMap Exchange.Label.op?).length + 2 * es.countP Exchange.Label.fires := by
  induction es with
  | nil => rfl
  | cons e es ih =>
    rw [List.map_cons, List.sum_cons, ih, List.filterMap_cons, List.countP_cons]
    cases e with
    | operation op =>
      simp only [Exchange.Label.op?, Exchange.Label.cost, Exchange.Label.fires, List.length_cons,
        Bool.false_eq_true, if_false]
      omega
    | fire =>
      simp only [Exchange.Label.op?, Exchange.Label.cost, Exchange.Label.fires, if_true]
      omega
    | compute k => exact Nat.zero_add _
    | deliver k => exact Nat.zero_add _
    | reply => exact Nat.zero_add _

theorem steady_run (es : List (Exchange.Label Double)) (s : Exchange Double ActorRef)
    (hes : ∀ e ∈ es, ∀ op, e.op? = some op → LookupApplication.Sends op)
    (h : run (Exchange.step div path onDeathPact calculator) (.initial path) es = some s) :
    Steady div calculator s ∧ es.length + s.work ≤ 2 + (es.map Exchange.Label.cost).sum := by
  refine run_induction_of (L := fun e => ∀ op, e.op? = some op → LookupApplication.Sends op)
    (P := fun es s => Steady div calculator s ∧
      es.length + s.work ≤ 2 + (es.map Exchange.Label.cost).sum)
    ⟨steady_initial path, le_rfl⟩ ?_ es s h hes
  rintro es s e t - ⟨hs, hwork⟩ he ht
  refine ⟨hs.step he ht, ?_⟩
  have hstep := hs.work ht
  simp only [List.length_append, List.length_singleton, List.map_append, List.map_singleton,
    List.sum_append, List.sum_singleton]
  omega

/-- Nothing but another operation can happen. -/
def Exchange.Settled (div : Double → Int32 → Double) (path : String) (onDeathPact : Directive)
    (calculator : ActorRef) (s : Exchange Double ActorRef) : Prop :=
  ∀ e : Exchange.Label Double, e.op? = none →
    s.step div path onDeathPact calculator e = none

theorem Exchange.Settled.delivered (h : s.Settled div path onDeathPact calculator) :
    s.Delivered ∧ s.scheduled = 0 := by
  refine ⟨⟨eq_nil_of_pick_none (Option.map_eq_none_iff.mp (h (.compute 0) rfl)),
    eq_nil_of_pick_none (Option.map_eq_none_iff.mp (h (.deliver 0) rfl))⟩, ?_⟩
  have hfire := h .fire rfl
  rw [Exchange.step] at hfire
  split at hfire
  next hn => exact hn
  next => cases hfire

theorem Exchange.settled_of_empty (hcalculating : s.calculating = []) (hresults : s.results = [])
    (hrequests : s.requests = 0) (hscheduled : s.scheduled = 0) :
    s.Settled div path onDeathPact calculator := by
  intro e he
  cases e with
  | operation op => cases he
  | compute k => simp [Exchange.step, pick, hcalculating]
  | deliver k => simp [Exchange.step, pick, hresults]
  | reply => simp [Exchange.step, hrequests]
  | fire => simp [Exchange.step, hscheduled]

theorem lookup_drains (es : List (Exchange.Label Double)) (s : Exchange Double ActorRef)
    (hes : ∀ e ∈ es, ∀ op, e.op? = some op → LookupApplication.Sends op)
    (h : run (Exchange.step div path onDeathPact calculator) (.initial path) es = some s) :
    es.length ≤ 2 + 3 * (es.filterMap Exchange.Label.op?).length +
        2 * es.countP Exchange.Label.fires ∧
    (s.Settled div path onDeathPact calculator → s.behavior = some (.active calculator) ∧
      ∀ (i : ℕ) (op : MathOp Double), s.accepted[i]? = some op →
        ∃ r, HandledOnce s.logged i r ∧ Exact div op r) := by
  obtain ⟨hs, hlength⟩ := steady_run es s hes h
  rw [cost_eq] at hlength
  refine ⟨by omega, fun hsettled => ⟨?_, fun i op hop => ?_⟩⟩
  · refine hs.carried.known.resolve_left fun hb => ?_
    have hscheduled := (hs.searching hb).2
    rw [hsettled.delivered.2] at hscheduled
    cases hscheduled
  · obtain ⟨hsent, hexact⟩ := exact_of_lookup div (hs.drawn op (List.mem_of_getElem? hop))
    exact ⟨_, (hs.carried.allHandled_iff hsettled.delivered.1).mpr hs.kept i op hop hsent, hexact⟩

end Lookup

end LookupActor

/-! ## Both applications -/

/-- As long as no message is lost and the remote calculator neither is missing nor terminates (no
`Terminated`, no `ActorIdentity(path, None)`), neither application loses a result. A run of the
creation application takes four steps at most for each operation; when nothing is left to do, each
operation has its exact result handled once and no calculator is left. A run of the lookup
application takes two steps to begin with, three at most for each operation and two for each timer
that fires; when nothing is left to do, the calculator is found, and each operation forwarded to it
has its exact result logged once. -/
theorem applications_drain {Double : Type} (ActorRef : Type) [DecidableEq ActorRef]
    (div : Double → Int32 → Double) (toDouble : Int32 → Double) :
    (∀ (es : List (Label Double)) (s : System Double),
      (∀ op ∈ operations es, CreationApplication.Sends toDouble op) →
      run (step div) .initial es = some s →
        es.length ≤ 4 * (operations es).length ∧
        (Settled div s → (∀ c ∈ s.children, c.status = .terminated) ∧
          ∀ i op, (operations es)[i]? = some op →
            ∃ r, HandledOnce s.log i r ∧ Exact div op r)) ∧
    ∀ (path : String) (onDeathPact : LookupActor.Directive) (calculator : ActorRef)
      (es : List (LookupActor.Exchange.Label Double)) (s : LookupActor.Exchange Double ActorRef),
      (∀ e ∈ es, ∀ op, e.op? = some op → LookupApplication.Sends op) →
      run (LookupActor.Exchange.step div path onDeathPact calculator) (.initial path) es = some s →
        es.length ≤ 2 + 3 * (es.filterMap LookupActor.Exchange.Label.op?).length +
          2 * es.countP LookupActor.Exchange.Label.fires ∧
        (s.Settled div path onDeathPact calculator →
          s.behavior = some (.active calculator) ∧
          ∀ (i : ℕ) (op : MathOp Double), s.accepted[i]? = some op →
            ∃ r, HandledOnce s.logged i r ∧ Exact div op r) :=
  ⟨fun es s => creation_drains es s, fun _ _ _ es s => LookupActor.lookup_drains es s⟩

/-- An operation of each application, all the way. -/
def oneProduct : List (Label ℤ) := [.operation (.multiply 3 4), .process 0, .deliver 0, .terminate 0]

def oneSum : List (LookupActor.Exchange.Label ℤ) :=
  [.reply, .operation (.add 3 4), .compute 0, .deliver 0, .fire]

theorem applications_drain_one :
    (∃ s, run (step quotient) .initial oneProduct = some s ∧
      ∃ r, HandledOnce s.log 0 r ∧ Exact quotient (.multiply 3 4) r) ∧
    ∃ s : LookupActor.Exchange ℤ ℕ,
      run (LookupActor.Exchange.step quotient "calculator" .restart 0) (.initial "calculator")
        oneSum = some s ∧ ∃ r, HandledOnce s.logged 0 r ∧ Exact quotient (.add 3 4) r := by
  constructor
  · refine ⟨_, rfl, (((applications_drain ℕ quotient Int32.toInt).1 oneProduct _ ?_ rfl).2
      (settled_of_terminated rfl ?_)).2 0 _ rfl⟩
    · intro op hop
      obtain rfl := List.mem_singleton.mp hop
      exact ⟨⟨0, by decide⟩, ⟨3, by decide⟩, ⟨4, by decide⟩, ⟨0, by decide⟩, ⟨0, by decide⟩, rfl⟩
    · intro c hc
      rw [List.mem_singleton.mp hc]
  · refine ⟨_, rfl, (((applications_drain ℕ quotient Int32.toInt).2 "calculator" .restart 0 oneSum
      _ ?_ rfl).2 (LookupActor.Exchange.settled_of_empty rfl rfl rfl rfl)).2 0 _ rfl⟩
    intro e he op hop
    have hmem : op ∈ oneSum.filterMap LookupActor.Exchange.Label.op? :=
      List.mem_filterMap.mpr ⟨e, he, hop⟩
    obtain rfl := List.mem_singleton.mp hmem
    exact ⟨⟨0, by decide⟩, ⟨3, by decide⟩, ⟨4, by decide⟩, rfl⟩

end SbtExample.Calculator
