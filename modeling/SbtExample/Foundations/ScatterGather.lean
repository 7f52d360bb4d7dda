import SbtExample.Foundations.Bag
import SbtExample.Foundations.MachineInt
import SbtExample.Foundations.Transition

/-! # Scatter and gather

A coordinator hands out a list of tasks, workers answer each of them, and the coordinator folds the
replies into its own state, counting them; at the last one it produces an output and stops itself.
Tasks and replies are bags, so that tasks are processed and replies arrive in every order. Tasks
carry their number in the coordinator's list: it says which task a reply answers, and no function of
the protocol reads it.

`Lawful` reads the coordinator's state as a running total in a commutative monoid and a count of the
replies. Under it the total of every reachable state is the sum over the tasks gathered so far, and
the output is the sum over all of them, whatever the order.
-/
set_option autoImplicit false
set_option maxHeartbeats 250000

namespace SbtExample.ScatterGather
open Transition Bag

/-! ## The system -/

/-- `scatter`: the tasks sent at the start. `gather`: one reply handled at the reading `K` of the
clock; an output is sent together with the coordinator's own stop. -/
structure Protocol (C T R K O : Type) where
  scatter : C → List T
  work : T → R
  gather : C → K → R → C × Option O

/-- `gathered` and `outputs` are histories, the latest reply first. -/
structure State (C T R O : Type) where
  coordinator : C
  started : Bool
  tasks : List (T × ℕ)
  replies : List (R × ℕ)
  gathered : List ℕ
  outputs : List O

inductive Label (K : Type) where
  | start
  | work (k : ℕ)
  | gather (k : ℕ) (now : K)

variable {C T R K O : Type}

def initial (c : C) : State C T R O := ⟨c, false, [], [], [], []⟩

def State.stopped (s : State C T R O) : Bool := !s.outputs.isEmpty

def State.receive (P : Protocol C T R K O) (s : State C T R O) (now : K) (r : R × ℕ) :
    State C T R O :=
  { s with
    coordinator := (P.gather s.coordinator now r.1).1
    gathered := r.2 :: s.gathered
    outputs := s.outputs ++ (P.gather s.coordinator now r.1).2.toList }

def step (P : Protocol C T R K O) (s : State C T R O) : Label K → Option (State C T R O)
  | .start =>
    if s.started then none
    else some { s with started := true, tasks := (P.scatter s.coordinator).zipIdx }
  | .work k => (pick s.tasks k).map fun (t, rest) =>
    { s with tasks := rest, replies := (P.work t.1, t.2) :: s.replies }
  | .gather k now => (pick s.replies k).map fun (r, rest) =>
    -- a reply to a stopped coordinator is a dead letter
    if s.stopped then { s with replies := rest }
    else State.receive P { s with replies := rest } now r

/-! ## Steps, said once -/

variable {P : Protocol C T R K O}

theorem step_start {s s' : State C T R O} (h : step P s .start = some s') :
    s.started = false ∧
      s' = { s with started := true, tasks := (P.scatter s.coordinator).zipIdx } := by
  unfold step at h
  cases hs : s.started with
  | true => simp [hs] at h
  | false =>
    simp only [hs, Bool.false_eq_true, if_false, Option.some.injEq] at h
    exact ⟨rfl, h.symm⟩

theorem step_work {s s' : State C T R O} {k : ℕ} (h : step P s (.work k) = some s') :
    ∃ t rest, pick s.tasks k = some (t, rest) ∧
      s' = { s with tasks := rest, replies := (P.work t.1, t.2) :: s.replies } := by
  obtain ⟨⟨t, rest⟩, hp, he⟩ := Option.map_eq_some_iff.mp h
  exact ⟨t, rest, hp, he.symm⟩

theorem step_gather {s s' : State C T R O} {k : ℕ} {now : K}
    (h : step P s (.gather k now) = some s') :
    ∃ r rest, pick s.replies k = some (r, rest) ∧
      s' = if s.stopped then { s with replies := rest }
        else State.receive P { s with replies := rest } now r := by
  obtain ⟨⟨r, rest⟩, hp, he⟩ := Option.map_eq_some_iff.mp h
  exact ⟨r, rest, hp, he.symm⟩

/-! ## Running totals -/

/-- The coordinator's state from `c₀` as a running total with values in `M`, and a count. `Ok` is
what every handled reply keeps of the coordinator's state. -/
structure Lawful (P : Protocol C T R K O) (c₀ : C) (M : Type) [AddCommMonoid M] where
  Ok : C → Prop
  total : C → M
  count : C → ℕ
  value : R → M
  Reports : O → M → Prop
  one_le : 1 ≤ (P.scatter c₀).length
  ok_init : Ok c₀
  total_init : total c₀ = 0
  count_init : count c₀ = 0
  ok_gather : ∀ c now r, Ok c → count c < (P.scatter c₀).length → Ok (P.gather c now r).1
  total_gather : ∀ c now r, Ok c → total (P.gather c now r).1 = total c + value r
  count_gather : ∀ c now r, Ok c → count c < (P.scatter c₀).length →
    count (P.gather c now r).1 = count c + 1
  gather_more : ∀ c now r, Ok c → count c + 1 < (P.scatter c₀).length → (P.gather c now r).2 = none
  gather_last : ∀ c now r, Ok c → count c + 1 = (P.scatter c₀).length →
    ∃ o, (P.gather c now r).2 = some o ∧ Reports o (total c + value r)

section Lawful
variable {c₀ : C} {M : Type} [AddCommMonoid M] (L : Lawful P c₀ M)

def Lawful.valueOf (i : ℕ) : M :=
  match (P.scatter c₀)[i]? with
  | none => 0
  | some t => L.value (P.work t)

def Lawful.grandTotal : M := ((P.scatter c₀).map fun t => L.value (P.work t)).sum

theorem Lawful.sum_valueOf_of_perm {l : List ℕ}
    (h : l.Perm (List.range (P.scatter c₀).length)) : (l.map L.valueOf).sum = L.grandTotal := by
  rw [(h.map L.valueOf).sum_eq, Lawful.grandTotal]
  congr 1
  apply List.ext_getElem
  · simp
  · intro i hi hi'
    have hlt : i < (P.scatter c₀).length := by simpa using hi'
    simp [Lawful.valueOf, hlt]

/-- Every task is with a worker, answered or gathered, exactly one of the three; the coordinator's
total is the sum over the gathered ones. -/
structure Inv (s : State C T R O) : Prop where
  ok : L.Ok s.coordinator
  waiting : s.started = false → s = initial c₀
  numbers : s.started = true →
    (s.tasks.map Prod.snd ++ s.replies.map Prod.snd ++ s.gathered).Perm
      (List.range (P.scatter c₀).length)
  tasks : ∀ t ∈ s.tasks, (P.scatter c₀)[t.2]? = some t.1
  replies : ∀ r ∈ s.replies, ∃ t, (P.scatter c₀)[r.2]? = some t ∧ r.1 = P.work t
  total : L.total s.coordinator = (s.gathered.map L.valueOf).sum
  count : L.count s.coordinator = s.gathered.length
  silent : s.gathered.length < (P.scatter c₀).length → s.outputs = []
  spoken : s.gathered.length = (P.scatter c₀).length →
    ∃ o, s.outputs = [o] ∧ L.Reports o (L.total s.coordinator)

theorem inv_initial : Inv L (initial c₀) where
  ok := L.ok_init
  waiting := fun _ => rfl
  numbers := fun h => by cases h
  tasks := fun t ht => by cases ht
  replies := fun r hr => by cases hr
  total := L.total_init
  count := L.count_init
  silent := fun _ => rfl
  spoken := fun h => by
    have := L.one_le
    simp only [initial, List.length_nil] at h
    omega

variable {L}

theorem Inv.start {s s' : State C T R O} (hi : Inv L s) (h : step P s .start = some s') :
    Inv L s' := by
  obtain ⟨hs, rfl⟩ := step_start h
  obtain rfl := hi.waiting hs
  have hnum : ((P.scatter c₀).zipIdx.map Prod.snd).Perm (List.range (P.scatter c₀).length) := by
    rw [List.zipIdx_map_snd, ← List.range_eq_range']
  exact
    { ok := hi.ok
      waiting := fun h => by cases h
      numbers := fun _ => by simpa [initial] using hnum
      tasks := fun t ht => List.mem_zipIdx_iff_getElem?.mp ht
      replies := hi.replies
      total := hi.total
      count := hi.count
      silent := hi.silent
      spoken := hi.spoken }

theorem Inv.started_of_task {s : State C T R O} (hi : Inv L s) {t : T × ℕ} (ht : t ∈ s.tasks) :
    s.started = true := by
  cases hs : s.started with
  | true => rfl
  | false =>
    rw [hi.waiting hs] at ht
    cases ht

theorem Inv.started_of_reply {s : State C T R O} (hi : Inv L s) {r : R × ℕ} (hr : r ∈ s.replies) :
    s.started = true := by
  cases hs : s.started with
  | true => rfl
  | false =>
    rw [hi.waiting hs] at hr
    cases hr

theorem Inv.work {s s' : State C T R O} {k : ℕ} (hi : Inv L s)
    (h : step P s (.work k) = some s') : Inv L s' := by
  obtain ⟨t, rest, hp, rfl⟩ := step_work h
  have hstarted := hi.started_of_task (pick_mem hp)
  have hnum : (rest.map Prod.snd ++ (t.2 :: s.replies.map Prod.snd) ++ s.gathered).Perm
      (s.tasks.map Prod.snd ++ s.replies.map Prod.snd ++ s.gathered) :=
    (List.perm_middle.trans (List.Perm.append_right _ (pick_map Prod.snd hp).symm)).append_right _
  exact
    { ok := hi.ok
      waiting := fun h => by
        rw [show s.started = false from h] at hstarted
        cases hstarted
      numbers := fun _ => by
        rw [List.map_cons]
        exact hnum.trans (hi.numbers hstarted)
      tasks := fun t' ht' => hi.tasks t' (pick_rest_mem hp ht')
      replies := fun r hr => by
        rcases List.mem_cons.mp hr with rfl | hr
        · exact ⟨t.1, hi.tasks t (pick_mem hp), rfl⟩
        · exact hi.replies r hr
      total := hi.total
      count := hi.count
      silent := hi.silent
      spoken := hi.spoken }

theorem Inv.gathered_lt {s : State C T R O} (hi : Inv L s) {r : R × ℕ} (hr : r ∈ s.replies) :
    s.gathered.length < (P.scatter c₀).length := by
  have hlen := (hi.numbers (hi.started_of_reply hr)).length_eq
  have hpos := List.length_pos_of_mem hr
  simp only [List.length_append, List.length_map, List.length_range] at hlen
  omega

theorem Inv.not_stopped {s : State C T R O} (hi : Inv L s) {r : R × ℕ} (hr : r ∈ s.replies) :
    s.stopped = false := by
  rw [State.stopped, hi.silent (hi.gathered_lt hr)]
  rfl

theorem Inv.valueOf_reply {s : State C T R O} (hi : Inv L s) {r : R × ℕ} (hr : r ∈ s.replies) :
    L.valueOf r.2 = L.value r.1 := by
  obtain ⟨t, ht, he⟩ := hi.replies r hr
  rw [Lawful.valueOf, ht, he]

theorem Inv.gather {s s' : State C T R O} {k : ℕ} {now : K} (hi : Inv L s)
    (h : step P s (.gather k now) = some s') : Inv L s' := by
  obtain ⟨r, rest, hp, rfl⟩ := step_gather h
  have hmem := pick_mem hp
  have hstarted := hi.started_of_reply hmem
  have hlt := hi.gathered_lt hmem
  have hsilent := hi.silent hlt
  have hcount := hi.count
  have htotal : L.total (P.gather s.coordinator now r.1).1 =
      ((r.2 :: s.gathered).map L.valueOf).sum := by
    rw [L.total_gather _ _ _ hi.ok, hi.total, List.map_cons, List.sum_cons, hi.valueOf_reply hmem,
      add_comm]
  have hnum : (s.tasks.map Prod.snd ++ rest.map Prod.snd ++ (r.2 :: s.gathered)).Perm
      (s.tasks.map Prod.snd ++ s.replies.map Prod.snd ++ s.gathered) := by
    rw [List.append_assoc, List.append_assoc]
    exact (List.perm_middle.trans
      (List.Perm.append_right s.gathered (pick_map Prod.snd hp).symm)).append_left _
  rw [hi.not_stopped hmem]
  exact
    { ok := L.ok_gather s.coordinator now r.1 hi.ok (by omega)
      waiting := fun h => by
        rw [show s.started = false from h] at hstarted
        cases hstarted
      numbers := fun _ => hnum.trans (hi.numbers hstarted)
      tasks := hi.tasks
      replies := fun r' hr' => hi.replies r' (pick_rest_mem hp hr')
      total := htotal
      count := by
        change L.count (P.gather s.coordinator now r.1).1 = s.gathered.length + 1
        rw [L.count_gather _ _ _ hi.ok (by omega), hcount]
      silent := fun hless => by
        change s.gathered.length + 1 < _ at hless
        change s.outputs ++ (P.gather s.coordinator now r.1).2.toList = []
        rw [L.gather_more _ _ _ hi.ok (by omega), hsilent]
        rfl
      spoken := fun hall => by
        change s.gathered.length + 1 = _ at hall
        obtain ⟨o, ho, hrep⟩ := L.gather_last s.coordinator now r.1 hi.ok (by omega)
        refine ⟨o, ?_, ?_⟩
        · change s.outputs ++ (P.gather s.coordinator now r.1).2.toList = [o]
          rw [ho, hsilent]
          rfl
        · change L.Reports o (L.total (P.gather s.coordinator now r.1).1)
          rw [L.total_gather _ _ _ hi.ok]
          exact hrep }

theorem inv_reachable {s : State C T R O} (h : Reachable (step P) (initial c₀) s) : Inv L s := by
  refine h.invariant (inv_initial L) ?_
  intro s e t _ hi ht
  cases e with
  | start => exact hi.start ht
  | work k => exact hi.work ht
  | gather k now => exact hi.gather ht

/-! ## What every run produces -/

theorem Inv.outputs_length_le {s : State C T R O} (hi : Inv L s) : s.outputs.length ≤ 1 := by
  by_cases hlt : s.gathered.length < (P.scatter c₀).length
  · rw [hi.silent hlt]
    exact Nat.zero_le 1
  · cases hs : s.started with
    | false =>
      rw [hi.waiting hs]
      exact Nat.zero_le 1
    | true =>
      have hlen := (hi.numbers hs).length_eq
      simp only [List.length_append, List.length_map, List.length_range] at hlen
      obtain ⟨o, ho, _⟩ := hi.spoken (by omega)
      rw [ho]
      exact Nat.le_refl 1

theorem Inv.gathered_of_output {s : State C T R O} (hi : Inv L s) {o : O} (ho : o ∈ s.outputs) :
    s.tasks = [] ∧ s.replies = [] ∧ s.gathered.Perm (List.range (P.scatter c₀).length) := by
  have hstarted : s.started = true := by
    cases hs : s.started with
    | true => rfl
    | false =>
      rw [hi.waiting hs] at ho
      cases ho
  have hnum := hi.numbers hstarted
  have hlen := hnum.length_eq
  simp only [List.length_append, List.length_map, List.length_range] at hlen
  have hall : ¬ s.gathered.length < (P.scatter c₀).length := fun hlt => by
    rw [hi.silent hlt] at ho
    cases ho
  have ht : s.tasks = [] := List.length_eq_zero_iff.mp (by omega)
  have hr : s.replies = [] := List.length_eq_zero_iff.mp (by omega)
  rw [ht, hr] at hnum
  exact ⟨ht, hr, hnum⟩

theorem Inv.output_reports {s : State C T R O} (hi : Inv L s) {o : O} (ho : o ∈ s.outputs) :
    L.Reports o L.grandTotal := by
  obtain ⟨_, _, hall⟩ := hi.gathered_of_output ho
  have hlen := hall.length_eq
  rw [List.length_range] at hlen
  obtain ⟨o', ho', hrep⟩ := hi.spoken hlen
  rw [ho', List.mem_singleton] at ho
  rw [ho, ← L.sum_valueOf_of_perm hall, ← hi.total]
  exact hrep

theorem quiescent_empty [Inhabited K] {s : State C T R O} (h : Quiescent (step P) s) :
    s.started = true ∧ s.tasks = [] ∧ s.replies = [] := by
  refine ⟨?_, ?_, ?_⟩
  · have hs := h .start
    unfold step at hs
    cases hst : s.started with
    | true => rfl
    | false => simp [hst] at hs
  · exact eq_nil_of_pick_none (Option.map_eq_none_iff.mp (h (.work 0)))
  · exact eq_nil_of_pick_none (Option.map_eq_none_iff.mp (h (.gather 0 default)))

theorem Inv.output_of_empty {s : State C T R O} (hi : Inv L s) (hs : s.started = true)
    (ht : s.tasks = []) (hr : s.replies = []) : ∃ o, s.outputs = [o] := by
  have hlen := (hi.numbers hs).length_eq
  rw [ht, hr] at hlen
  simp only [List.map_nil, List.nil_append, List.length_range] at hlen
  obtain ⟨o, ho, _⟩ := hi.spoken hlen
  exact ⟨o, ho⟩

end Lawful

/-! ## Every run ends -/

/-- The steps that are left: the start, two for each task, one for each reply. -/
def fuel (c₀ : C) (P : Protocol C T R K O) (s : State C T R O) : ℕ :=
  (if s.started then 0 else 2 * (P.scatter c₀).length + 1) + 2 * s.tasks.length + s.replies.length

theorem fuel_decreases {c₀ : C} {M : Type} [AddCommMonoid M] (L : Lawful P c₀ M)
    (s : State C T R O) (e : Label K) (t : State C T R O)
    (hr : Reachable (step P) (initial c₀) s) (h : step P s e = some t) :
    fuel c₀ P t < fuel c₀ P s := by
  have hi := inv_reachable (L := L) hr
  cases e with
  | start =>
    obtain ⟨hs, rfl⟩ := step_start h
    obtain rfl := hi.waiting hs
    simp [fuel, initial]
  | work k =>
    obtain ⟨t, rest, hp, rfl⟩ := step_work h
    have hlen := pick_length hp
    simp only [fuel, List.length_cons]
    omega
  | gather k now =>
    obtain ⟨r, rest, hp, rfl⟩ := step_gather h
    have hlen := pick_length hp
    rw [hi.not_stopped (pick_mem hp)]
    simp only [fuel, State.receive, Bool.false_eq_true, if_false]
    omega

theorem run_length {c₀ : C} {M : Type} [AddCommMonoid M] (L : Lawful P c₀ M) (es : List (Label K))
    (s : State C T R O) (h : run (step P) (initial c₀) es = some s) :
    es.length ≤ 2 * (P.scatter c₀).length + 1 := by
  have hle := run_length_le (fuel c₀ P) (fuel_decreases L) es s h
  simp only [fuel, initial, Bool.false_eq_true, if_false, List.length_nil] at hle
  omega

theorem exists_output [Inhabited K] {c₀ : C} {M : Type} [AddCommMonoid M] (L : Lawful P c₀ M) :
    ∃ s : State C T R O, Reachable (step P) (initial c₀) s ∧ ∃ o, s.outputs = [o] := by
  obtain ⟨s, hs, hq⟩ := exists_quiescent (fuel c₀ P) (fuel_decreases L)
    (Reachable.refl (step P) (initial c₀))
  obtain ⟨hst, ht, hrep⟩ := quiescent_empty hq
  exact ⟨s, hs, (inv_reachable (L := L) hs).output_of_empty hst ht hrep⟩

/-! ## Coordinators that count in 32 bits -/

section Counter
open MachineInt
variable {C T R K O : Type} {P : Protocol C T R K O} {c₀ : C} {M : Type} [AddCommMonoid M]

/-- The coordinator counts the replies in an `Int32`, and reports its total when the count is at the
goal, which is the number of tasks. -/
structure Counter (P : Protocol C T R K O) (c₀ : C) (M : Type) [AddCommMonoid M] where
  count : C → Int32
  goal : C → Int32
  total : C → M
  value : R → M
  report : C → K → R → O
  Reports : O → M → Prop
  one_le : 1 ≤ goal c₀
  scatter_length : (P.scatter c₀).length = (goal c₀).toInt.toNat
  count_init : count c₀ = 0
  total_init : total c₀ = 0
  count_gather : ∀ c now r, count (P.gather c now r).1 = count c + 1
  goal_gather : ∀ c now r, goal (P.gather c now r).1 = goal c
  total_gather : ∀ c now r, total (P.gather c now r).1 = total c + value r
  output : ∀ c now r,
    (P.gather c now r).2 = if count c + 1 = goal c then some (report c now r) else none
  reports : ∀ c now r, Reports (report c now r) (total c + value r)

def Counter.Counting (L : Counter P c₀ M) (c : C) : Prop :=
  L.goal c = L.goal c₀ ∧ 0 ≤ (L.count c).toInt

theorem Counter.one_le_length (L : Counter P c₀ M) : 1 ≤ (P.scatter c₀).length := by
  have h1 := one_le_iff.mp L.one_le
  rw [L.scatter_length]
  omega

theorem Counter.counting_init (L : Counter P c₀ M) : L.Counting c₀ :=
  ⟨rfl, by rw [L.count_init, Int32.toInt_zero]⟩

theorem Counter.count_init_toNat (L : Counter P c₀ M) : (L.count c₀).toInt.toNat = 0 := by
  rw [L.count_init, Int32.toInt_zero]
  rfl

theorem Counter.toInt_gather (L : Counter P c₀ M) (c : C) (now : K) (r : R) (hc : L.Counting c)
    (hlt : (L.count c).toInt.toNat < (P.scatter c₀).length) :
    (L.count (P.gather c now r).1).toInt = (L.count c).toInt + 1 := by
  obtain ⟨hgoal, hnn⟩ := hc
  rw [L.scatter_length] at hlt
  rw [L.count_gather]
  exact toInt_succ (b := L.goal c₀) (by omega)

theorem Counter.counting_gather (L : Counter P c₀ M) (c : C) (now : K) (r : R)
    (hc : L.Counting c) (hlt : (L.count c).toInt.toNat < (P.scatter c₀).length) :
    L.Counting (P.gather c now r).1 := by
  have hs := L.toInt_gather c now r hc hlt
  obtain ⟨hgoal, hnn⟩ := hc
  exact ⟨(L.goal_gather c now r).trans hgoal, by omega⟩

theorem Counter.toNat_gather (L : Counter P c₀ M) (c : C) (now : K) (r : R) (hc : L.Counting c)
    (hlt : (L.count c).toInt.toNat < (P.scatter c₀).length) :
    (L.count (P.gather c now r).1).toInt.toNat = (L.count c).toInt.toNat + 1 := by
  have hs := L.toInt_gather c now r hc hlt
  have hnn := hc.2
  omega

theorem Counter.gather_more (L : Counter P c₀ M) (c : C) (now : K) (r : R) (hc : L.Counting c)
    (hlt : (L.count c).toInt.toNat + 1 < (P.scatter c₀).length) : (P.gather c now r).2 = none := by
  obtain ⟨hgoal, hnn⟩ := hc
  rw [L.scatter_length] at hlt
  rw [L.output, if_neg]
  intro he
  have hs : (L.count c + 1).toInt = (L.count c).toInt + 1 :=
    toInt_succ (b := L.goal c₀) (by omega)
  rw [he, hgoal] at hs
  omega

theorem Counter.gather_last (L : Counter P c₀ M) (c : C) (now : K) (r : R) (hc : L.Counting c)
    (hall : (L.count c).toInt.toNat + 1 = (P.scatter c₀).length) :
    ∃ o, (P.gather c now r).2 = some o ∧ L.Reports o (L.total c + L.value r) := by
  obtain ⟨hgoal, hnn⟩ := hc
  rw [L.scatter_length] at hall
  refine ⟨L.report c now r, ?_, L.reports c now r⟩
  rw [L.output, if_pos]
  apply eq_of_toInt
  rw [toInt_succ (b := L.goal c₀) (by omega), hgoal]
  omega

def Counter.lawful (L : Counter P c₀ M) : Lawful P c₀ M where
  Ok := L.Counting
  total := L.total
  count c := (L.count c).toInt.toNat
  value := L.value
  Reports := L.Reports
  one_le := L.one_le_length
  ok_init := L.counting_init
  total_init := L.total_init
  count_init := L.count_init_toNat
  ok_gather := L.counting_gather
  total_gather c now r _ := L.total_gather c now r
  count_gather := L.toNat_gather
  gather_more := L.gather_more
  gather_last := L.gather_last

end Counter

end SbtExample.ScatterGather
