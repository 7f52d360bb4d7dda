import SbtExample.Foundations.Bag
import SbtExample.Foundations.Fairness
import SbtExample.Foundations.Slots

/-! # One stream for every client (`HttpStreamingServer`, `HttpStreamingClient`)

The server holds one `AsyncStream` of random numbers, whose tail is evaluated once, by whoever gets
there first; its variable `messages` is a position in it, which its own `foreach` moves on. A request
is answered with the stream from that position on. A write ends when the connection has read it, and
chunks arrive in the order of the writes. A client prints a thousand of them and closes the
connection at the next one; the server notices that later.
-/
set_option autoImplicit false
set_option maxHeartbeats 250000

namespace SbtExample.Finagle.Streaming
open Transition Slots

abbrev Buf : Type := String

/-! ## A client and its connection -/

/-- `start` is where the response begins in the stream, `next` what `foreachF` writes next. -/
structure Subscriber where
  start : ℕ
  next : ℕ
  wire : List Buf
  messageCount : ℕ
  printed : List Buf
  closed : Bool
  gone : Bool

/-- The stream as far as it has been evaluated, and the position that `messages` holds. -/
structure State where
  produced : List Buf
  messages : ℕ
  subscribers : List Subscriber

/-- `Buf.Utf8(n.toString)`. -/
def message (n : Int32) : Buf := toString n

def State.initial (n : Int32) : State := ⟨[message n], 0, []⟩

/-- `apply`. -/
def Subscriber.new (messages : ℕ) : Subscriber := ⟨messages, messages, [], 0, [], false, false⟩

/-- `writable.write`. -/
def Subscriber.write (produced : List Buf) (c : Subscriber) : Option Subscriber :=
  if c.gone then none
  else produced[c.next]?.map fun buf => { c with next := c.next + 1, wire := c.wire ++ [buf] }

/-- The function of the client's `foreach`. -/
def Subscriber.receive (c : Subscriber) : Option Subscriber :=
  match c.wire with
  | [] => none
  | buf :: rest => some <|
    if c.messageCount < 1000 then
      { c with wire := rest, messageCount := c.messageCount + 1, printed := c.printed ++ [buf] }
    else { c with wire := rest, closed := true }

/-- The write on a closed connection fails. -/
def Subscriber.hangUp (c : Subscriber) : Option Subscriber :=
  if c.closed then some { c with gone := true } else none

inductive Label
  | tick (n : Int32)
  | drop
  | request
  | write (i : ℕ)
  | receive (i : ℕ)
  | hangUp (i : ℕ)

/-- The timer runs when the tail has been asked for: by `messages.drop(1)` or by a subscriber. -/
def State.awaited (s : State) : Bool :=
  s.messages = s.produced.length || s.subscribers.any fun c => c.next = s.produced.length

def State.move (s : State) (i : ℕ) (f : Subscriber → Option Subscriber) : Option State :=
  (update s.subscribers i f).map fun l => { s with subscribers := l }

def step (s : State) : Label → Option State
  | .tick n => if s.awaited then some { s with produced := s.produced ++ [message n] } else none
  | .drop =>
    if s.messages < s.produced.length then some { s with messages := s.messages + 1 } else none
  | .request => some { s with subscribers := s.subscribers ++ [.new s.messages] }
  | .write i => s.move i (Subscriber.write s.produced)
  | .receive i => s.move i Subscriber.receive
  | .hangUp i => s.move i Subscriber.hangUp

/-! ## One subscriber -/

/-- What was written is the stream from `start` to `next`; as long as the connection is open it has
been printed or is on its way. -/
structure Subscriber.Sound (produced : List Buf) (c : Subscriber) : Prop where
  messageCount : c.messageCount = c.printed.length
  le : c.printed.length ≤ 1000
  full : c.closed = true → c.printed.length = 1000
  gone : c.gone = true → c.closed = true
  start_le : c.start ≤ c.next
  next_le : c.next ≤ produced.length
  written : c.closed = false →
    c.printed ++ c.wire = (produced.drop c.start).take (c.next - c.start)
  printed : c.printed <+: produced.drop c.start

variable {produced : List Buf} {c d : Subscriber}

theorem sound_new {messages : ℕ} (h : messages ≤ produced.length) :
    (Subscriber.new messages).Sound produced where
  messageCount := rfl
  le := Nat.zero_le _
  full := nofun
  gone := nofun
  start_le := le_rfl
  next_le := h
  written _ := by simp [Subscriber.new]
  printed := List.nil_prefix

theorem Subscriber.Sound.tick (h : c.Sound produced) (buf : Buf) :
    c.Sound (produced ++ [buf]) := by
  have hstart := h.start_le.trans h.next_le
  refine { h with next_le := ?_, written := fun hopen => ?_, printed := ?_ }
  · have := h.next_le
    rw [List.length_append]
    omega
  · have hlen : c.next - c.start ≤ (produced.drop c.start).length := by
      have := h.next_le
      rw [List.length_drop]
      omega
    rw [h.written hopen, List.drop_append_of_le_length hstart, List.take_append_of_le_length hlen]
  · rw [List.drop_append_of_le_length hstart]
    exact h.printed.trans (List.prefix_append _ _)

theorem Subscriber.Sound.write (h : c.Sound produced) (hd : c.write produced = some d) :
    d.Sound produced ∧ d.start = c.start := by
  unfold Subscriber.write at hd
  split_ifs at hd
  obtain ⟨buf, hbuf, rfl⟩ := Option.map_eq_some_iff.mp hd
  have hlt := (List.getElem?_eq_some_iff.mp hbuf).1
  refine ⟨{ h with start_le := ?_, next_le := hlt, written := fun hopen => ?_ }, rfl⟩
  · have := h.start_le
    change c.start ≤ c.next + 1
    omega
  · have hget : (produced.drop c.start)[c.next - c.start]? = some buf := by
      rw [List.getElem?_drop, Nat.add_sub_cancel' h.start_le, hbuf]
    have hsucc : c.next + 1 - c.start = c.next - c.start + 1 := by
      have := h.start_le
      omega
    change c.printed ++ (c.wire ++ [buf]) = (produced.drop c.start).take (c.next + 1 - c.start)
    rw [hsucc, List.take_add_one, hget, ← List.append_assoc, h.written hopen]
    rfl

theorem Subscriber.Sound.receive (h : c.Sound produced) (hd : c.receive = some d) :
    d.Sound produced ∧ d.start = c.start := by
  unfold Subscriber.receive at hd
  split at hd
  next => cases hd
  next buf rest hwire =>
    split_ifs at hd with hcount
    · cases hd
      have hcountp := h.messageCount
      have hopen : c.closed = false := by
        by_contra hclosed
        have := h.full (by simpa using hclosed)
        omega
      have hwritten : (c.printed ++ [buf]) ++ rest
          = (produced.drop c.start).take (c.next - c.start) := by
        rw [← h.written hopen, hwire, List.append_assoc]
        rfl
      refine ⟨{ h with
        messageCount := ?_, le := ?_, full := fun hclosed => ?_, written := fun _ => hwritten,
        printed := ?_ }, rfl⟩
      · rw [List.length_append, ← hcountp]
        rfl
      · rw [List.length_append, List.length_singleton]
        omega
      · exact absurd hclosed (by simp [hopen])
      · exact (List.prefix_append _ rest).trans (hwritten ▸ List.take_prefix _ _)
    · cases hd
      have hcountp := h.messageCount
      have hle := h.le
      refine ⟨{ h with full := fun _ => ?_, gone := fun _ => rfl, written := nofun }, rfl⟩
      change c.printed.length = 1000
      omega

theorem Subscriber.Sound.hangUp (h : c.Sound produced) (hd : c.hangUp = some d) :
    d.Sound produced ∧ d.start = c.start := by
  unfold Subscriber.hangUp at hd
  split_ifs at hd with hclosed
  cases hd
  exact ⟨{ h with gone := fun _ => hclosed }, rfl⟩

/-! ## All of them -/

variable {s t : State}

structure State.Inv (s : State) : Prop where
  messages_le : s.messages ≤ s.produced.length
  sound : ∀ c ∈ s.subscribers, c.Sound s.produced
  start_le : ∀ c ∈ s.subscribers, c.start ≤ s.messages
  sorted : (s.subscribers.map Subscriber.start).Pairwise (· ≤ ·)

theorem inv_initial (n : Int32) : (State.initial n).Inv where
  messages_le := Nat.zero_le _
  sound _ hc := nomatch hc
  start_le _ hc := nomatch hc
  sorted := .nil

theorem move_eq_some {i : ℕ} {f : Subscriber → Option Subscriber} (h : s.move i f = some t) :
    ∃ c d, s.subscribers[i]? = some c ∧ f c = some d ∧
      t = { s with subscribers := s.subscribers.set i d } := by
  obtain ⟨l, hl, rfl⟩ := Option.map_eq_some_iff.mp h
  obtain ⟨c, d, hc, hd, rfl⟩ := update_eq_some hl
  exact ⟨c, d, hc, hd, rfl⟩

theorem State.Inv.move (h : s.Inv) {i : ℕ} {f : Subscriber → Option Subscriber}
    (hf : ∀ c d, c.Sound s.produced → f c = some d → d.Sound s.produced ∧ d.start = c.start)
    (ht : s.move i f = some t) : t.Inv := by
  obtain ⟨c, d, hc, hd, rfl⟩ := move_eq_some ht
  have hmem := List.mem_of_getElem? hc
  obtain ⟨hsound, hstart⟩ := hf c d (h.sound c hmem) hd
  refine ⟨h.messages_le, forall_mem_set h.sound hsound, forall_mem_set h.start_le ?_, ?_⟩
  · rw [hstart]
    exact h.start_le c hmem
  · change ((s.subscribers.set i d).map Subscriber.start).Pairwise _
    rw [map_set_eq hc hstart]
    exact h.sorted

theorem State.Inv.step (h : s.Inv) {e : Label} (ht : step s e = some t) : t.Inv := by
  cases e with
  | tick n =>
    simp only [Streaming.step] at ht
    split_ifs at ht
    cases ht
    refine ⟨h.messages_le.trans ?_, fun c hc => (h.sound c hc).tick _, h.start_le, h.sorted⟩
    rw [List.length_append]
    exact Nat.le_add_right _ _
  | drop =>
    simp only [Streaming.step] at ht
    split_ifs at ht with hlt
    cases ht
    exact ⟨hlt, h.sound, fun c hc => (h.start_le c hc).trans (Nat.le_succ _), h.sorted⟩
  | request =>
    cases ht
    refine ⟨h.messages_le, fun c hc => ?_, fun c hc => ?_, ?_⟩
    · rcases List.mem_append.mp hc with hc | hc
      · exact h.sound c hc
      · rw [List.mem_singleton.mp hc]
        exact sound_new h.messages_le
    · rcases List.mem_append.mp hc with hc | hc
      · exact h.start_le c hc
      · rw [List.mem_singleton.mp hc]
        exact le_rfl
    · rw [List.map_append, List.pairwise_append]
      refine ⟨h.sorted, List.pairwise_singleton _ _, fun a ha b hb => ?_⟩
      obtain ⟨c, hc, rfl⟩ := List.mem_map.mp ha
      rw [List.mem_singleton.mp hb]
      exact h.start_le c hc
  | write i => exact h.move (fun _ _ hc hd => hc.write hd) ht
  | receive i => exact h.move (fun _ _ hc hd => hc.receive hd) ht
  | hangUp i => exact h.move (fun _ _ hc hd => hc.hangUp hd) ht

theorem inv_of_reachable {n : Int32} (h : Reachable step (.initial n) s) : s.Inv :=
  h.invariant (inv_initial n) fun _ _ _ _ hs ht => hs.step ht

/-! ## A thousand messages -/

/-- What the next message waits for: it is on the wire, can be written, or has to be drawn. -/
def Subscriber.delay (produced : List Buf) (c : Subscriber) : ℕ :=
  if c.wire ≠ [] then 0 else if c.next < produced.length then 1 else 2

def Subscriber.Helpful (produced : List Buf) (i : ℕ) (c : Subscriber) (e : Label) : Prop :=
  if c.wire ≠ [] then e = .receive i
  else if c.next < produced.length then e = .write i
  else ∃ n, e = .tick n

def Subscriber.rank (produced : List Buf) (c : Subscriber) : ℕ :=
  3 * (1001 - c.printed.length) + c.delay produced

def rank (i : ℕ) (s : State) : ℕ := s.subscribers[i]?.elim 0 (Subscriber.rank s.produced)

def Helpful (i : ℕ) (s : State) : Label → Prop :=
  s.subscribers[i]?.elim (fun _ => False) (Subscriber.Helpful s.produced i)

/-- The client that began at `start` still reads. -/
def Reading (i start : ℕ) (s : State) : Prop :=
  s.Inv ∧ ∃ c, s.subscribers[i]? = some c ∧ c.closed = false ∧ c.start = start

def Finished (i start : ℕ) (s : State) : Prop :=
  ∃ c, s.subscribers[i]? = some c ∧ c.closed = true ∧ c.start = start

theorem rank_eq {i : ℕ} (h : s.subscribers[i]? = some c) : rank i s = c.rank s.produced := by
  rw [rank, h]
  rfl

theorem helpful_eq {i : ℕ} (h : s.subscribers[i]? = some c) :
    Helpful i s = c.Helpful s.produced i := by
  rw [Helpful, h]
  rfl

theorem reading_enabled {i start : ℕ} (h : Reading i start s) :
    ∃ e, Helpful i s e ∧ step s e ≠ none := by
  obtain ⟨hinv, c, hc, hopen, -⟩ := h
  have hsound := hinv.sound c (List.mem_of_getElem? hc)
  rw [helpful_eq hc]
  cases hwire : c.wire with
  | cons buf rest =>
    refine ⟨.receive i, by simp [Subscriber.Helpful, hwire], ?_⟩
    have hne : c.receive ≠ none := by simp [Subscriber.receive, hwire]
    simpa [step, State.move] using update_ne_none hc hne
  | nil =>
    by_cases hlt : c.next < s.produced.length
    · refine ⟨.write i, by simp [Subscriber.Helpful, hwire, hlt], ?_⟩
      have hgone : c.gone = false := by
        by_contra hgone
        rw [Bool.not_eq_false] at hgone
        rw [hsound.gone hgone] at hopen
        cases hopen
      have hne : c.write s.produced ≠ none := by simp [Subscriber.write, hgone, hlt]
      simpa [step, State.move] using update_ne_none hc hne
    · refine ⟨.tick 0, by simp [Subscriber.Helpful, hwire, hlt], ?_⟩
      have hend : c.next = s.produced.length := le_antisymm hsound.next_le (not_lt.mp hlt)
      have hawaited : s.awaited = true := by
        simp only [State.awaited, Bool.or_eq_true, List.any_eq_true]
        exact .inr ⟨c, List.mem_of_getElem? hc, by simpa using hend⟩
      simp [step, hawaited]

theorem delay_le (produced : List Buf) (c : Subscriber) : c.delay produced ≤ 2 := by
  unfold Subscriber.delay
  split_ifs <;> omega

/-- The timer helps a client that waits for it, and changes nothing for the others. -/
theorem tick_cases (c : Subscriber) (i : ℕ) (produced : List Buf) (buf : Buf) (n : Int32)
    (hle : c.next ≤ produced.length) :
    c.rank (produced ++ [buf]) < c.rank produced ∨
      c.rank (produced ++ [buf]) = c.rank produced ∧
        c.Helpful (produced ++ [buf]) i = c.Helpful produced i ∧
        ¬ c.Helpful produced i (.tick n) := by
  have hlt' : c.next < (produced ++ [buf]).length := by
    rw [List.length_append, List.length_singleton]
    omega
  by_cases hwire : c.wire = []
  · by_cases hlt : c.next < produced.length
    · right
      refine ⟨by simp only [Subscriber.rank, Subscriber.delay, hlt, hlt'], ?_, ?_⟩
      · funext e
        simp only [Subscriber.Helpful, hwire, hlt, hlt', if_true]
      · simp [Subscriber.Helpful, hwire, hlt]
    · left
      simp only [Subscriber.rank, Subscriber.delay, hwire, hlt, hlt', if_true, if_false, ne_eq,
        not_true]
      omega
  · right
    refine ⟨by simp [Subscriber.rank, Subscriber.delay, hwire], ?_, ?_⟩
    · funext e
      simp [Subscriber.Helpful, hwire]
    · simp [Subscriber.Helpful, hwire]

theorem write_cases {i : ℕ} (hd : c.write produced = some d) :
    d.closed = c.closed ∧ (d.rank produced < c.rank produced ∨
      d.rank produced = c.rank produced ∧ d.Helpful produced i = c.Helpful produced i ∧
        ¬ c.Helpful produced i (.write i)) := by
  unfold Subscriber.write at hd
  split_ifs at hd
  obtain ⟨buf, hbuf, rfl⟩ := Option.map_eq_some_iff.mp hd
  have hlt := (List.getElem?_eq_some_iff.mp hbuf).1
  refine ⟨rfl, ?_⟩
  by_cases hwire : c.wire = []
  · left
    simp [Subscriber.rank, Subscriber.delay, hwire, hlt]
  · right
    refine ⟨by simp [Subscriber.rank, Subscriber.delay, hwire], ?_, ?_⟩
    · funext e
      simp [Subscriber.Helpful, hwire]
    · simp [Subscriber.Helpful, hwire]

theorem receive_cases (hc : c.Sound produced) (hd : c.receive = some d) :
    d.closed = true ∨ d.closed = c.closed ∧ d.rank produced < c.rank produced := by
  unfold Subscriber.receive at hd
  split at hd
  next => cases hd
  next buf rest hwire =>
    split_ifs at hd with hcount
    · cases hd
      refine .inr ⟨rfl, ?_⟩
      have hlen := hc.messageCount
      have hdelay := delay_le produced ⟨c.start, c.next, rest, c.messageCount + 1,
        c.printed ++ [buf], c.closed, c.gone⟩
      have hzero : c.delay produced = 0 := by simp [Subscriber.delay, hwire]
      simp only [Subscriber.rank, hzero, List.length_append, List.length_singleton]
      omega
    · cases hd
      exact .inl rfl

theorem reading_next {i start : ℕ} {e : Label} (h : Reading i start s) (ht : step s e = some t) :
    Finished i start t ∨ Reading i start t ∧ (rank i t < rank i s ∨ rank i t = rank i s ∧
      Helpful i t = Helpful i s ∧ ¬ Helpful i s e) := by
  obtain ⟨hinv, c, hc, hopen, hstart⟩ := h
  have hsound := hinv.sound c (List.mem_of_getElem? hc)
  have hinvt := hinv.step ht
  rw [rank_eq hc, helpful_eq hc]
  -- a step that leaves the client and what has been drawn alone
  have hsame : ∀ {u : State}, u.Inv → u.subscribers[i]? = some c → u.produced = s.produced →
      ¬ c.Helpful s.produced i e → Reading i start u ∧ (rank i u < c.rank s.produced ∨
        rank i u = c.rank s.produced ∧ Helpful i u = c.Helpful s.produced i ∧
          ¬ c.Helpful s.produced i e) := by
    intro u hu hget hproduced hunhelpful
    rw [rank_eq hget, helpful_eq hget, hproduced]
    exact ⟨⟨hu, c, hget, hopen, hstart⟩, .inr ⟨rfl, rfl, hunhelpful⟩⟩
  have hmove : ∀ {j : ℕ} {f : Subscriber → Option Subscriber}, s.move j f = some t → j ≠ i →
      t.subscribers[i]? = some c ∧ t.produced = s.produced := by
    intro j f hf hji
    obtain ⟨c', d, hc', hd, rfl⟩ := move_eq_some hf
    exact ⟨by rw [List.getElem?_set_ne hji, hc], rfl⟩
  have hself : ∀ {f : Subscriber → Option Subscriber}, s.move i f = some t →
      ∃ d, f c = some d ∧ t.subscribers[i]? = some d ∧ t.produced = s.produced := by
    intro f hf
    obtain ⟨c', d, hc', hd, rfl⟩ := move_eq_some hf
    cases hc.symm.trans hc'
    exact ⟨d, hd, by rw [List.getElem?_set_self (List.getElem?_eq_some_iff.mp hc).1], rfl⟩
  cases e with
  | tick n =>
    simp only [step] at ht
    split_ifs at ht
    cases ht
    rw [rank_eq (s := { s with produced := s.produced ++ [message n] }) hc,
      helpful_eq (s := { s with produced := s.produced ++ [message n] }) hc]
    exact .inr ⟨⟨hinvt, c, hc, hopen, hstart⟩,
      tick_cases c i s.produced (message n) n hsound.next_le⟩
  | drop =>
    simp only [step] at ht
    split_ifs at ht
    cases ht
    exact .inr (hsame hinvt hc rfl (by unfold Subscriber.Helpful; split_ifs <;> simp))
  | request =>
    cases ht
    exact .inr (hsame hinvt (Bag.getElem?_concat_of_some _ hc) rfl
      (by unfold Subscriber.Helpful; split_ifs <;> simp))
  | write j =>
    by_cases hji : j = i
    · subst hji
      obtain ⟨d, hd, hget, hproduced⟩ := hself ht
      obtain ⟨hclosed, hrank⟩ := write_cases (i := j) hd
      obtain ⟨-, hdstart⟩ := hsound.write hd
      rw [rank_eq hget, helpful_eq hget, hproduced]
      exact .inr ⟨⟨hinvt, d, hget, hclosed.trans hopen, hdstart.trans hstart⟩, hrank⟩
    · obtain ⟨hget, hproduced⟩ := hmove ht hji
      exact .inr (hsame hinvt hget hproduced
        (by unfold Subscriber.Helpful; split_ifs <;> simp [hji]))
  | receive j =>
    by_cases hji : j = i
    · subst hji
      obtain ⟨d, hd, hget, hproduced⟩ := hself ht
      obtain ⟨-, hdstart⟩ := hsound.receive hd
      rcases receive_cases hsound hd with hclosed | ⟨hclosed, hlt⟩
      · exact .inl ⟨d, hget, hclosed, hdstart.trans hstart⟩
      · rw [rank_eq hget, hproduced]
        exact .inr ⟨⟨hinvt, d, hget, hclosed.trans hopen, hdstart.trans hstart⟩, .inl hlt⟩
    · obtain ⟨hget, hproduced⟩ := hmove ht hji
      exact .inr (hsame hinvt hget hproduced
        (by unfold Subscriber.Helpful; split_ifs <;> simp [hji]))
  | hangUp j =>
    by_cases hji : j = i
    · subst hji
      obtain ⟨d, hd, -, -⟩ := hself ht
      simp [Subscriber.hangUp, hopen] at hd
    · obtain ⟨hget, hproduced⟩ := hmove ht hji
      exact .inr (hsame hinvt hget hproduced (by unfold Subscriber.Helpful; split_ifs <;> simp))

theorem reading_helps (i start : ℕ) :
    HelpsBy step (Reading i start) (Finished i start) (rank i) (Helpful i) where
  enabled _ h := reading_enabled h
  next _ _ _ h ht := reading_next h ht

/-- Numbers are drawn, and the client is written to and reads. -/
structure Served (x : Execution step) (i : ℕ) : Prop where
  tick : x.FairTo fun e => ∃ n, e = .tick n
  write : x.WeaklyFair (.write i)
  receive : x.WeaklyFair (.receive i)

theorem Served.helpful {x : Execution step} {i start : ℕ} (h : Served x i)
    (hs : Reading i start s) : x.FairTo (Helpful i s) := by
  obtain ⟨-, c, hc, -, -⟩ := hs
  rw [helpful_eq hc]
  by_cases hwire : c.wire = []
  · by_cases hlt : c.next < s.produced.length
    · have heq : c.Helpful s.produced i = (· = .write i) := by
        funext e
        simp [Subscriber.Helpful, hwire, hlt]
      rw [heq]
      exact Execution.fairTo_eq h.write
    · have heq : c.Helpful s.produced i = fun e => ∃ n, e = .tick n := by
        funext e
        simp [Subscriber.Helpful, hwire, hlt]
      rw [heq]
      exact h.tick
  · have heq : c.Helpful s.produced i = (· = .receive i) := by
      funext e
      simp [Subscriber.Helpful, hwire]
    rw [heq]
    exact Execution.fairTo_eq h.receive

/-- A closed client has printed a thousand messages, without a gap from its first one on. -/
theorem Subscriber.Sound.printed_eq (h : c.Sound produced) (hclosed : c.closed = true) :
    c.printed = (produced.drop c.start).take 1000 := by
  rw [← h.full hclosed]
  exact List.prefix_iff_eq_take.mp h.printed

/-- All clients print the one stream: each without a gap from where it began, a later one not from
an earlier place, and two of them the same where both are. A client prints a thousand messages at
most, and as many when it is served, before it closes its connection. -/
theorem clients_print_one_stream (n : Int32) (s : State) (h : Reachable step (.initial n) s) :
    (∀ c ∈ s.subscribers, c.printed <+: s.produced.drop c.start ∧ c.start ≤ s.messages ∧
      c.printed.length ≤ 1000 ∧ (c.closed = true → c.printed.length = 1000)) ∧
    (∀ (i j : ℕ) (c d : Subscriber), i < j → s.subscribers[i]? = some c →
      s.subscribers[j]? = some d → c.start ≤ d.start ∧
      ∀ k b b', c.printed[d.start - c.start + k]? = some b → d.printed[k]? = some b' → b = b') ∧
    ∀ x : Execution step, ∀ m, x.state m = s → ∀ i c, s.subscribers[i]? = some c → Served x i →
      ∃ m' ≥ m, ∃ d, (x.state m').subscribers[i]? = some d ∧ d.closed = true ∧
        d.printed = ((x.state m').produced.drop c.start).take 1000 := by
  have hinv := inv_of_reachable h
  refine ⟨fun c hc => ?_, fun i j c d hij hc hd => ?_, fun x m hm i c hc hserved => ?_⟩
  · have hsound := hinv.sound c hc
    exact ⟨hsound.printed, hinv.start_le c hc, hsound.le, hsound.full⟩
  · have hle : c.start ≤ d.start := by
      obtain ⟨hi', rfl⟩ := List.getElem?_eq_some_iff.mp hc
      obtain ⟨hj', rfl⟩ := List.getElem?_eq_some_iff.mp hd
      have hsorted := List.pairwise_iff_getElem.mp hinv.sorted i j
        (by rwa [List.length_map]) (by rwa [List.length_map]) hij
      simpa using hsorted
    refine ⟨hle, fun k b b' hb hb' => ?_⟩
    have hget : ∀ {c : Subscriber} {l : ℕ} {b : Buf}, c ∈ s.subscribers →
        c.printed[l]? = some b → s.produced[c.start + l]? = some b := by
      intro c l b hc hb
      obtain ⟨rest, hrest⟩ := (hinv.sound c hc).printed
      rw [← List.getElem?_drop, ← hrest,
        List.getElem?_append_left (List.getElem?_eq_some_iff.mp hb).1, hb]
    have h1 := hget (List.mem_of_getElem? hc) hb
    have h2 := hget (List.mem_of_getElem? hd) hb'
    rw [show c.start + (d.start - c.start + k) = d.start + k by omega] at h1
    exact Option.some.inj (h1.symm.trans h2)
  · have hgoal : ∃ m' ≥ m, Finished i c.start (x.state m') := by
      by_cases hclosed : c.closed = true
      · exact ⟨m, le_rfl, c, by rw [hm, hc], hclosed, rfl⟩
      · rw [Bool.not_eq_true] at hclosed
        exact (reading_helps i c.start).reaches x (fun t ht => hserved.helpful ht)
          (hm ▸ ⟨hinv, c, hc, hclosed, rfl⟩)
    obtain ⟨m', hm', d, hd, hclosed, hstart⟩ := hgoal
    have hlater : (x.state m').Inv := inv_of_reachable (h.trans (hm ▸ x.reachable_of_le hm'))
    exact ⟨m', hm', d, hd, hclosed,
      hstart ▸ (hlater.sound d (List.mem_of_getElem? hd)).printed_eq hclosed⟩

/-- One client comes, and then the timer, the server and the client take turns. -/
def inTurn (n : ℕ) : Label :=
  if n = 0 then .request
  else
    match n % 3 with
    | 0 => .tick 7
    | 1 => .write 0
    | _ => .receive 0

def inTurnExecution : Execution step := .ofSchedule _ inTurn (.initial 3)

theorem inTurn_served : Served inTurnExecution 0 where
  tick := by
    refine Execution.fair_ofSchedule fun n => ⟨3 * n + 3, by omega, ⟨7, ?_⟩, ?_⟩
    · simp [inTurn]
    · rintro s e ⟨k, rfl⟩ he
      rw [show inTurn (3 * n + 3) = .tick 7 by simp [inTurn]]
      simp only [step] at he ⊢
      split at he
      next hawaited =>
        rw [if_pos hawaited]
        exact Option.some_ne_none _
      next => exact absurd rfl he
  write := Execution.weaklyFair_ofSchedule fun n => ⟨3 * n + 1, by omega, by
    simp only [inTurn, show (3 * n + 1) % 3 = 1 by omega, Nat.succ_ne_zero, if_false]⟩
  receive := Execution.weaklyFair_ofSchedule fun n => ⟨3 * n + 2, by omega, by
    simp only [inTurn, show (3 * n + 2) % 3 = 2 by omega, Nat.succ_ne_zero, if_false]⟩

/-- The second client comes a message later; a client that is served has its thousand messages. -/
theorem clients_print_one_stream_two :
    (∃ (s : State) (c d : Subscriber), s.subscribers = [c, d] ∧
      c.printed = [message 7, message 8] ∧
      d.printed = [message 8] ∧ d.printed <+: s.produced.drop d.start ∧ c.start ≤ d.start) ∧
    ∃ m ≥ 1, ∃ d, (inTurnExecution.state m).subscribers[0]? = some d ∧ d.closed = true ∧
      d.printed = ((inTurnExecution.state m).produced.drop 0).take 1000 := by
  have hreach : Reachable step (.initial 3) ⟨[message 3, message 7, message 8], 2,
      [⟨1, 3, [], 2, [message 7, message 8], false, false⟩,
        ⟨2, 3, [], 1, [message 8], false, false⟩]⟩ :=
    ⟨[.drop, .tick 7, .request, .write 0, .drop, .receive 0, .tick 8, .request, .write 1, .write 0,
      .receive 0, .receive 1], rfl⟩
  obtain ⟨hprinted, hordered, -⟩ := clients_print_one_stream 3 _ hreach
  have hlive := (clients_print_one_stream 3 _ (inTurnExecution.reachable 1)).2.2 inTurnExecution 1
    rfl 0 (.new 0) rfl inTurn_served
  exact ⟨⟨_, _, _, rfl, rfl, rfl, (hprinted _ (List.mem_cons_of_mem _ List.mem_cons_self)).1,
    (hordered 0 1 _ _ Nat.zero_lt_one rfl rfl).1⟩, hlive⟩

end SbtExample.Finagle.Streaming
