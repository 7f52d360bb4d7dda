import SbtExample.Foundations.Fairness
import SbtExample.RedisQueue.Conservation

/-! # The queue is drained

As long as its pop does not fail, the listener gets to every value of the list, whatever is pushed
meanwhile: the value in front of it is at most a pop, a reply and a pause away. The pusher goes on
for ever, so that the listener does too.
-/
set_option autoImplicit false
set_option maxHeartbeats 250000

namespace SbtExample.RedisQueue
open Transition

section Progress
variable {Buffer : Type} {toStr : Buffer → String} {list : List Buffer} {v : Buffer}
  {s t : System Buffer} {i : ℕ} {b : Buffer}

/-! ## The listener's turn -/

def Listener.turn : Listener Buffer → Label Buffer
  | .popping => .executePop
  | .replied _ => .popReply
  | .pausing => .wakeListener
  | .failed _ => .failPop

/-- The steps until the head of a list that is not empty has been received. -/
def Listener.delay : Listener Buffer → ℕ
  | .replied (some _) => 1
  | .popping => 2
  | .pausing => 3
  | .replied none => 4
  | .failed _ => 0

theorem turn_enabled (toStr : Buffer → String) (hf : s.listener.hasFailed = false) :
    step toStr s s.listener.turn ≠ none := by
  cases hl : s.listener with
  | popping => simp [Listener.turn, step, System.executePop, hl]
  | replied v => cases v <;> simp [Listener.turn, step, System.popReply, hl]
  | pausing => simp [Listener.turn, step, System.wakeListener, hl]
  | failed popLeft =>
    rw [hl] at hf
    cases hf

/-- The listener does not stay where it was. -/
theorem turn_moves (hf : s.listener.hasFailed = false)
    (h : step toStr s s.listener.turn = some t) : t.listener ≠ s.listener := by
  cases hl : s.listener with
  | popping =>
    simp only [hl, Listener.turn, step, System.executePop] at h
    cases h
    simp
  | replied v =>
    cases v <;> simp only [hl, Listener.turn, step, System.popReply] at h <;> cases h <;>
      simp [System.issuePop]
  | pausing =>
    simp only [hl, Listener.turn, step, System.wakeListener] at h
    cases h
    simp [System.issuePop]
  | failed popLeft =>
    rw [hl] at hf
    cases hf

/-! ## The value at position `i` -/

/-- The value is in the list or on its way, and the listener has not failed. -/
structure Awaited (toStr : Buffer → String) (list : List Buffer) (i : ℕ) (b : Buffer)
    (s : System Buffer) : Prop where
  inv : Inv toStr list s
  running : s.listener.hasFailed = false
  ahead : s.received.length ≤ i
  value : (list ++ s.pushed)[i]? = some b

def Received (i : ℕ) (b : Buffer) (s : System Buffer) : Prop :=
  s.listener.hasFailed = true ∨ s.received[i]? = some b

def rank (i : ℕ) (s : System Buffer) : ℕ := 3 * (i + 1 - s.received.length) + s.listener.delay

theorem received_of_lt (hi : Inv toStr list s) (hv : (list ++ s.pushed)[i]? = some b)
    (hlt : i < s.received.length) : s.received[i]? = some b := by
  rw [hi.conserved, List.append_assoc, List.append_assoc, List.getElem?_append_left hlt] at hv
  exact hv

theorem Awaited.list_ne_nil (h : Awaited toStr list i b s) (hl : s.listener = .popping) :
    s.list ≠ [] := by
  intro hnil
  have hlost := h.inv.lost_nil (by simp [hl])
  have hconserved := h.inv.conserved
  simp only [System.inFlight, hl, hlost, hnil, List.append_nil] at hconserved
  have hlt := (List.getElem?_eq_some_iff.mp h.value).1
  rw [hconserved] at hlt
  exact absurd hlt (not_lt.mpr h.ahead)

theorem Awaited.executePop (h : Awaited toStr list i b s) (ht : s.executePop = some t) :
    Awaited toStr list i b t ∧ rank i t < rank i s := by
  have hinv := h.inv.executePop ht
  unfold System.executePop at ht
  split at ht
  next hl =>
    cases ht
    refine ⟨⟨hinv, rfl, h.ahead, h.value⟩, ?_⟩
    obtain ⟨head, tail, hlist⟩ := List.exists_cons_of_ne_nil (h.list_ne_nil hl)
    simp [rank, System.lPop, Listener.delay, hl, hlist]
  next hl =>
    have hrunning := h.running
    rw [hl] at hrunning
    cases hrunning
  next => cases ht

theorem Awaited.popReply (h : Awaited toStr list i b s) (ht : s.popReply toStr = some t) :
    Received i b t ∨ Awaited toStr list i b t ∧ rank i t < rank i s := by
  have hinv := h.inv.popReply ht
  unfold System.popReply at ht
  split at ht
  next v hl =>
    cases ht
    have hvalue := h.value
    have hahead := h.ahead
    by_cases hlast : s.received.length = i
    · refine .inl (.inr (received_of_lt hinv hvalue ?_))
      simp [System.issuePop, hlast]
    · refine .inr ⟨⟨hinv, rfl, ?_, hvalue⟩, ?_⟩
      · simp only [System.issuePop, List.length_append, List.length_singleton]
        omega
      · simp only [rank, System.issuePop, List.length_append, List.length_singleton, Listener.delay,
          hl]
        omega
  next hl =>
    cases ht
    refine .inr ⟨⟨hinv, rfl, h.ahead, h.value⟩, ?_⟩
    simp [rank, Listener.delay, hl]
  next => cases ht

theorem Awaited.wakeListener (h : Awaited toStr list i b s) (ht : s.wakeListener = some t) :
    Awaited toStr list i b t ∧ rank i t < rank i s := by
  have hinv := h.inv.wakeListener ht
  unfold System.wakeListener at ht
  split at ht
  next hl =>
    cases ht
    refine ⟨⟨hinv, rfl, h.ahead, h.value⟩, ?_⟩
    simp [rank, System.issuePop, Listener.delay, hl]
  next => cases ht

theorem failPop_failed (h : s.failPop = some t) : t.listener.hasFailed = true := by
  unfold System.failPop at h
  split at h
  next => cases h; rfl
  next => cases h; rfl
  next => cases h

theorem Awaited.push (h : Awaited toStr list i b s) (vs : List Buffer) (p : Pusher Buffer) :
    Awaited toStr list i b { s.rPush vs with pusher := p } := by
  refine ⟨(h.inv.rPush vs).setPusher p, h.running, h.ahead, ?_⟩
  change (list ++ (s.pushed ++ vs))[i]? = some b
  rw [← List.append_assoc, List.getElem?_append_left (List.getElem?_eq_some_iff.mp h.value).1]
  exact h.value

theorem awaited_helps (toStr : Buffer → String) (list : List Buffer) (i : ℕ) (b : Buffer) :
    Helps (step toStr) (Awaited toStr list i b) (Received i b) (rank i)
      (fun s => s.listener.turn) where
  enabled s h := turn_enabled toStr h.running
  next s e t h ht := by
    rcases step_cases ht with hpop | hreply | hwake | hfail | ⟨vs, p, rfl⟩
    · obtain ⟨hs, hlt⟩ := h.executePop hpop
      exact .inr ⟨hs, .inl hlt⟩
    · rcases h.popReply hreply with hgoal | ⟨hs, hlt⟩
      · exact .inl hgoal
      · exact .inr ⟨hs, .inl hlt⟩
    · obtain ⟨hs, hlt⟩ := h.wakeListener hwake
      exact .inr ⟨hs, .inl hlt⟩
    · exact .inl (.inl (failPop_failed hfail))
    · refine .inr ⟨h.push vs p, .inr ⟨rfl, rfl, ?_⟩⟩
      rintro rfl
      exact turn_moves h.running ht rfl

/-- Redis executes the listener's pops, the replies arrive and the pauses end. -/
structure ListenerServed (x : Execution (step toStr)) : Prop where
  executePop : x.WeaklyFair .executePop
  popReply : x.WeaklyFair .popReply
  wakeListener : x.WeaklyFair .wakeListener

theorem ListenerServed.turn {x : Execution (step toStr)} (h : ListenerServed x)
    (hf : s.listener.hasFailed = false) : x.WeaklyFair s.listener.turn := by
  cases hl : s.listener with
  | popping => exact h.executePop
  | replied v => exact h.popReply
  | pausing => exact h.wakeListener
  | failed popLeft =>
    rw [hl] at hf
    cases hf

theorem reaches_received {x : Execution (step toStr)} (h0 : x.state 0 = .initial list v)
    (hx : ListenerServed x) (n : ℕ) (hb : (list ++ (x.state n).pushed)[i]? = some b) :
    ∃ m ≥ n, (x.state m).listener.hasFailed = true ∨ (x.state m).printed[i]? = some (toStr b) := by
  have hinv : ∀ n, Inv toStr list (x.state n) := fun n => inv_reachable (h0 ▸ x.reachable n)
  have hreceived : ∃ m ≥ n, Received i b (x.state m) := by
    by_cases hf : (x.state n).listener.hasFailed = true
    · exact ⟨n, le_rfl, .inl hf⟩
    · rw [Bool.not_eq_true] at hf
      by_cases hlt : i < (x.state n).received.length
      · exact ⟨n, le_rfl, .inr (received_of_lt (hinv n) hb hlt)⟩
      · exact (awaited_helps toStr list i b).reaches x (fun s hs => hx.turn hs.running)
          ⟨hinv n, hf, not_lt.mp hlt, hb⟩
  obtain ⟨m, hm, hgoal⟩ := hreceived
  refine ⟨m, hm, hgoal.imp_right fun hget => ?_⟩
  rw [(hinv m).printed, List.getElem?_map, hget]
  rfl

/-! ## The pusher -/

def Pusher.hasFailed : Pusher Buffer → Bool
  | .failed _ => true
  | _ => false

/-- The labels that take the pusher on. -/
def Pusher.Turn : Pusher Buffer → Label Buffer → Prop
  | .pushing _, e => e = .executePush
  | .replied, e => e = .pushReply
  | .pausing, e => ∃ v, e = .wakePusher v
  | .failed _, _ => False

/-- The steps until the next value is pushed. -/
def Pusher.delay : Pusher Buffer → ℕ
  | .pushing _ => 1
  | .pausing => 2
  | .replied => 3
  | .failed _ => 0

structure Pushing (k : ℕ) (s : System Buffer) : Prop where
  running : s.pusher.hasFailed = false
  behind : s.pushed.length ≤ k

def Pushed (k : ℕ) (s : System Buffer) : Prop :=
  s.pusher.hasFailed = true ∨ k < s.pushed.length

def pushRank (k : ℕ) (s : System Buffer) : ℕ := 3 * (k + 1 - s.pushed.length) + s.pusher.delay

theorem pusher_enabled [Inhabited Buffer] (toStr : Buffer → String)
    (hf : s.pusher.hasFailed = false) : ∃ e, s.pusher.Turn e ∧ step toStr s e ≠ none := by
  cases hp : s.pusher with
  | pushing v => exact ⟨_, rfl, by simp [step, System.executePush, hp]⟩
  | replied => exact ⟨_, rfl, by simp [step, System.pushReply, hp]⟩
  | pausing => exact ⟨_, ⟨default, rfl⟩, by simp [step, System.wakePusher, hp]⟩
  | failed pushLeft =>
    rw [hp] at hf
    cases hf

theorem pusher_moves {e : Label Buffer} (he : s.pusher.Turn e) (h : step toStr s e = some t) :
    t.pusher ≠ s.pusher := by
  cases hp : s.pusher with
  | pushing v =>
    rw [hp] at he
    cases he
    simp only [step, System.executePush, hp] at h
    cases h
    simp
  | replied =>
    rw [hp] at he
    cases he
    simp only [step, System.pushReply, hp] at h
    cases h
    simp
  | pausing =>
    rw [hp] at he
    obtain ⟨v, rfl⟩ := he
    simp only [step, System.wakePusher, hp] at h
    cases h
    simp
  | failed pushLeft =>
    rw [hp] at he
    cases he

theorem listener_pusher (toStr : Buffer → String) (h : s.executePop = some t ∨
    s.popReply toStr = some t ∨ s.wakeListener = some t ∨ s.failPop = some t) :
    t.pusher = s.pusher ∧ t.pushed = s.pushed := by
  rcases h with h | h | h | h
  · unfold System.executePop at h
    split at h <;> cases h <;> exact ⟨rfl, rfl⟩
  · unfold System.popReply at h
    split at h <;> cases h <;> exact ⟨rfl, rfl⟩
  · unfold System.wakeListener at h
    split at h <;> cases h
    exact ⟨rfl, rfl⟩
  · unfold System.failPop at h
    split at h <;> cases h <;> exact ⟨rfl, rfl⟩

/-- A step fails the pusher, takes it nearer to its next value, or leaves it alone. -/
theorem pusher_cases {e : Label Buffer} (h : step toStr s e = some t) :
    t.pusher.hasFailed = true ∨
      (s.pushed.length < t.pushed.length ∧ t.pusher.delay ≤ s.pusher.delay + 2) ∨
      (s.pushed = t.pushed ∧ t.pusher.delay < s.pusher.delay) ∨
      s.pushed = t.pushed ∧ t.pusher = s.pusher := by
  cases e with
  | executePop =>
    obtain ⟨hpusher, hpushed⟩ := listener_pusher toStr (.inl h)
    exact .inr (.inr (.inr ⟨hpushed.symm, hpusher⟩))
  | popReply =>
    obtain ⟨hpusher, hpushed⟩ := listener_pusher toStr (.inr (.inl h))
    exact .inr (.inr (.inr ⟨hpushed.symm, hpusher⟩))
  | wakeListener =>
    obtain ⟨hpusher, hpushed⟩ := listener_pusher toStr (.inr (.inr (.inl h)))
    exact .inr (.inr (.inr ⟨hpushed.symm, hpusher⟩))
  | failPop =>
    obtain ⟨hpusher, hpushed⟩ := listener_pusher toStr (.inr (.inr (.inr h)))
    exact .inr (.inr (.inr ⟨hpushed.symm, hpusher⟩))
  | executePush =>
    simp only [step, System.executePush] at h
    split at h
    next v hp =>
      cases h
      exact .inr (.inl ⟨by simp [System.rPush], by simp [hp, Pusher.delay]⟩)
    next =>
      cases h
      exact .inl rfl
    next => cases h
  | pushReply =>
    simp only [step, System.pushReply] at h
    split at h
    next hp =>
      cases h
      exact .inr (.inr (.inl ⟨rfl, by simp [hp, Pusher.delay]⟩))
    next => cases h
  | wakePusher v =>
    simp only [step, System.wakePusher] at h
    split at h
    next hp =>
      cases h
      exact .inr (.inr (.inl ⟨rfl, by simp [hp, Pusher.delay]⟩))
    next => cases h
  | failPush =>
    simp only [step, System.failPush] at h
    split at h <;> cases h <;> exact .inl rfl
  | foreignPush vs =>
    cases h
    by_cases hvs : vs = []
    · subst hvs
      exact .inr (.inr (.inr ⟨(List.append_nil _).symm, rfl⟩))
    · have := List.length_pos_iff.mpr hvs
      exact .inr (.inl ⟨by simp [System.rPush, this], by simp [System.rPush]⟩)

theorem pushing_helps [Inhabited Buffer] (toStr : Buffer → String) (k : ℕ) :
    HelpsBy (step toStr) (Pushing k) (Pushed k) (pushRank k) (fun s => s.pusher.Turn) where
  enabled s h := pusher_enabled toStr h.running
  next s e t h ht := by
    by_cases hgoal : Pushed k t
    · exact .inl hgoal
    obtain ⟨hrunning, hbehind⟩ := not_or.mp hgoal
    refine .inr ⟨⟨Bool.not_eq_true _ ▸ hrunning, not_lt.mp hbehind⟩, ?_⟩
    rcases pusher_cases ht with hfail | ⟨hlt, hdelay⟩ | ⟨hpushed, hdelay⟩ | ⟨hpushed, hpusher⟩
    · exact absurd hfail hrunning
    · left
      simp only [pushRank]
      omega
    · left
      simp only [pushRank, hpushed]
      omega
    · refine .inr ⟨by rw [pushRank, pushRank, hpushed, hpusher], by rw [hpusher], fun he => ?_⟩
      exact pusher_moves he ht hpusher

structure PusherServed (x : Execution (step toStr)) : Prop where
  executePush : x.WeaklyFair .executePush
  pushReply : x.WeaklyFair .pushReply
  wakePusher : x.FairTo fun e => ∃ v, e = .wakePusher v

theorem PusherServed.turn {x : Execution (step toStr)} (h : PusherServed x)
    (hf : s.pusher.hasFailed = false) : x.FairTo s.pusher.Turn := by
  cases hp : s.pusher with
  | pushing v => exact Execution.fairTo_eq h.executePush
  | replied => exact Execution.fairTo_eq h.pushReply
  | pausing => exact h.wakePusher
  | failed pushLeft =>
    rw [hp] at hf
    cases hf

theorem reaches_pushed [Inhabited Buffer] {x : Execution (step toStr)} (hx : PusherServed x)
    (k : ℕ) : ∃ m, (x.state m).pusher.hasFailed = true ∨ k < (x.state m).pushed.length := by
  by_cases hgoal : Pushed k (x.state 0)
  · exact ⟨0, hgoal⟩
  · obtain ⟨hrunning, hbehind⟩ := not_or.mp hgoal
    obtain ⟨m, -, hm⟩ := (pushing_helps toStr k).reaches x (fun s hs => hx.turn hs.running)
      ⟨Bool.not_eq_true _ ▸ hrunning, not_lt.mp hbehind⟩
    exact ⟨m, hm⟩

/-- Every value that is in the list at the start or pushed at any time is printed, at its own
position, unless the listener fails. When both loops are served, one of them fails or the listener
prints more and more values. -/
theorem queue_drained (toStr : Buffer → String) (list : List Buffer) (v : Buffer)
    (x : Execution (step toStr)) (h0 : x.state 0 = .initial list v) (hx : ListenerServed x) :
    (∀ n (i : ℕ) b, (list ++ (x.state n).pushed)[i]? = some b → ∃ m ≥ n,
      (x.state m).listener.hasFailed = true ∨ (x.state m).printed[i]? = some (toStr b)) ∧
    (PusherServed x → ∀ k, ∃ m, (x.state m).listener.hasFailed = true ∨
      (x.state m).pusher.hasFailed = true ∨ k < (x.state m).printed.length) := by
  refine ⟨fun n _ _ hb => reaches_received h0 hx n hb, fun hpusher k => ?_⟩
  have : Inhabited Buffer := ⟨v⟩
  obtain ⟨n, hfail | hlt⟩ := reaches_pushed hpusher k
  · exact ⟨n, .inr (.inl hfail)⟩
  · have hk : k < (list ++ (x.state n).pushed).length := by
      rw [List.length_append]
      omega
    obtain ⟨m, -, hfail | hprinted⟩ := reaches_received h0 hx n (List.getElem?_eq_getElem hk)
    · exact ⟨m, .inl hfail⟩
    · exact ⟨m, .inr (.inr (List.getElem?_eq_some_iff.mp hprinted).1)⟩

end Progress

/-! ## Both loops in turn -/

/-- Everything that keeps the loops going, over and over. -/
def inTurn (n : ℕ) : Label String :=
  match n % 6 with
  | 0 => .executePop
  | 1 => .popReply
  | 2 => .wakeListener
  | 3 => .executePush
  | 4 => .pushReply
  | _ => .wakePusher "7"

def inTurnExecution : Execution (step (id : String → String)) :=
  .ofSchedule _ inTurn (.initial ["1"] "2")

theorem inTurn_weaklyFair (j : ℕ) (hj : j < 6) : inTurnExecution.WeaklyFair (inTurn j) := by
  refine Execution.weaklyFair_ofSchedule fun n => ⟨6 * n + j, by omega, ?_⟩
  simp only [inTurn, show (6 * n + j) % 6 = j % 6 by omega]

theorem inTurn_served : ListenerServed inTurnExecution where
  executePop := inTurn_weaklyFair 0 (by omega)
  popReply := inTurn_weaklyFair 1 (by omega)
  wakeListener := inTurn_weaklyFair 2 (by omega)

theorem inTurn_pushes : PusherServed inTurnExecution where
  executePush := inTurn_weaklyFair 3 (by omega)
  pushReply := inTurn_weaklyFair 4 (by omega)
  wakePusher := by
    have hoffer : ∀ n, inTurn (6 * n + 5) = .wakePusher "7" := fun n => by
      simp only [inTurn, show (6 * n + 5) % 6 = 5 by omega]
    refine Execution.fair_ofSchedule fun n => ⟨6 * n + 5, by omega, ⟨"7", hoffer n⟩, ?_⟩
    rintro s e ⟨v, rfl⟩ he
    rw [hoffer]
    simp only [step, System.wakePusher] at he ⊢
    split at he
    next => exact Option.some_ne_none _
    next => exact absurd rfl he

/-- The pushed value is printed behind the one from the start, and then one after the other. -/
theorem queue_drained_inTurn :
    (∃ m ≥ 4, (inTurnExecution.state m).listener.hasFailed = true ∨
      (inTurnExecution.state m).printed[1]? = some "2") ∧
    ∀ k, ∃ m, (inTurnExecution.state m).listener.hasFailed = true ∨
      (inTurnExecution.state m).pusher.hasFailed = true ∨
      k < (inTurnExecution.state m).printed.length :=
  have hdrained := queue_drained id ["1"] "2" inTurnExecution rfl inTurn_served
  ⟨hdrained.1 4 1 "2" (by decide), hdrained.2 inTurn_pushes⟩

end SbtExample.RedisQueue
