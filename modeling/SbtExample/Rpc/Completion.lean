import SbtExample.Foundations.Slots
import SbtExample.Rpc.Transparency

/-! # Calls come to an end

A call takes eight steps at most, and only the expiry of an address costs another one. Without
timeouts and losses a call that waits is always somewhere: with the client actor, on its way to it
or back. When nothing is left to do, the calls that the servers answered have therefore returned.
-/
set_option autoImplicit false
set_option maxHeartbeats 250000

namespace SbtExample.Rpc
open Transition Bag

section Completion
variable {V : Type} {services : ℕ → Services V} {s t : System V}

/-! ## The steps of a run -/

def RpcClientActor.work : RpcClientActor → ℕ
  | .idle => 0
  | .awaiting _ _ => 2

def Invocation.work (inv : Invocation V) : ℕ :=
  match inv.status with
  | .awaiting => 1
  | _ => 0

/-- The steps that are left. -/
def System.work (s : System V) : ℕ :=
  6 * s.toClient.length + 5 * s.mailbox.length + s.client.work + 2 * s.toServer.length
    + s.replies.length + (s.invocations.map Invocation.work).sum

/-- The steps that a label brings, itself included. -/
def Label.cost : Label V → ℕ
  | .invoke _ _ _ => 8
  | .expire _ => 1
  | _ => 0

def Label.expires : Label V → Bool
  | .expire _ => true
  | _ => false

theorem setStatus_work {i : ℕ} {event : CallMethod V} {future : ℕ} {status : Status V}
    (hinv : s.invocations[i]? = some ⟨event, future, .awaiting⟩) (hs : status ≠ .awaiting) :
    (s.setStatus i status).work + 1 ≤ s.work := by
  have hzero : (⟨event, future, status⟩ : Invocation V).work = 0 := by
    cases status with
    | awaiting => exact absurd rfl hs
    | returned o => rfl
    | thrown => rfl
  have hsum := Slots.sum_map_set (b := ⟨event, future, status⟩) Invocation.work hinv
  have hmodify : (s.setStatus i status).invocations
      = s.invocations.set i ⟨event, future, status⟩ := by
    rw [System.setStatus, List.modify_eq_set_getElem?, hinv]
    rfl
  have hone : (⟨event, future, .awaiting⟩ : Invocation V).work = 1 := rfl
  simp only [System.work, hmodify]
  simp only [System.setStatus]
  omega

theorem replyTo_length (sender : ℕ) (reply : Except Throwable (Obj V)) :
    (replyTo sender reply).length ≤ 1 := by
  cases reply <;> simp [replyTo]

theorem work_step {e : Label V} (h : step services s e = some t) :
    t.work + 1 ≤ s.work + e.cost := by
  cases e with
  | invoke clz method args =>
    cases h
    simp only [System.work, System.invoke, List.length_cons, List.map_append, List.sum_append,
      List.map_cons, List.map_nil, List.sum_cons, List.sum_nil, Invocation.work, Label.cost]
    omega
  | arrive k =>
    obtain ⟨⟨env, rest⟩, hp, rfl⟩ := Option.map_eq_some_iff.mp h
    have hlen := pick_length hp
    simp only [System.work, List.length_append, List.length_singleton]
    omega
  | clientReceive =>
    simp only [step, System.clientReceive] at h
    split at h
    next env rest hclient hmailbox =>
      cases h
      simp only [System.work, hclient, hmailbox, List.length_cons, RpcClientActor.work]
      omega
    next => cases h
  | clientResume =>
    simp only [step, System.clientResume] at h
    split at h
    next => cases h
    next sender future hclient =>
      split at h <;> cases h
      · simp only [System.work, hclient, List.length_cons, RpcClientActor.work]
        omega
      · simp only [System.work, hclient, RpcClientActor.work]
        omega
  | clientTimeout =>
    simp only [step, System.clientTimeout] at h
    split at h
    next => cases h
    next sender future hclient =>
      cases h
      simp only [System.work, hclient, RpcClientActor.work]
      omega
  | serve k server outcome =>
    obtain ⟨⟨env, rest⟩, hp, rfl⟩ := Option.map_eq_some_iff.mp h
    have hlen := pick_length hp
    have hle := replyTo_length env.sender
      ((RpcServerActor.new (services server)).onReceive env.event outcome).reply
    simp only [System.work, List.length_append]
    omega
  | deliverReply k =>
    obtain ⟨⟨reply, rest⟩, hp, rfl⟩ := Option.map_eq_some_iff.mp h
    have hlen := pick_length hp
    simp only [System.work]
    omega
  | expire address =>
    cases h
    exact le_rfl
  | proxyResume i =>
    simp only [step, System.proxyResume] at h
    split at h
    next event future hinv =>
      split at h <;> cases h
      · exact setStatus_work hinv (by simp)
      · exact setStatus_work hinv (by simp)
    next => cases h
  | proxyTimeout i =>
    simp only [step, System.proxyTimeout] at h
    split at h
    next event future hinv =>
      cases h
      exact setStatus_work hinv (by simp)
    next => cases h
  | loseToClient k =>
    obtain ⟨⟨env, rest⟩, hp, rfl⟩ := Option.map_eq_some_iff.mp h
    have hlen := pick_length hp
    simp only [System.work]
    omega
  | loseToServer k =>
    obtain ⟨⟨env, rest⟩, hp, rfl⟩ := Option.map_eq_some_iff.mp h
    have hlen := pick_length hp
    simp only [System.work]
    omega
  | loseReply k =>
    obtain ⟨⟨reply, rest⟩, hp, rfl⟩ := Option.map_eq_some_iff.mp h
    have hlen := pick_length hp
    simp only [System.work]
    omega

theorem cost_sum (es : List (Label V)) : (es.map Label.cost).sum =
    8 * (calls es).length + (es.filter Label.expires).length := by
  induction es with
  | nil => rfl
  | cons e es ih =>
    rw [List.map_cons, List.sum_cons, ih]
    cases e with
    | invoke clz method args =>
      change 8 + _ = 8 * ((calls es).length + 1) + _
      rw [List.filter_cons_of_neg (by simp [Label.expires])]
      omega
    | expire address =>
      change 1 + _ = 8 * (calls es).length + _
      rw [List.filter_cons_of_pos rfl, List.length_cons]
      omega
    | arrive k | clientReceive | clientResume | clientTimeout | serve k server outcome
    | deliverReply k | proxyResume i | proxyTimeout i | loseToClient k | loseToServer k
    | loseReply k => exact Nat.zero_add _

theorem length_run (es : List (Label V)) (s : System V)
    (h : run (step services) .initial es = some s) :
    es.length + s.work ≤ 8 * (calls es).length + (es.filter Label.expires).length := by
  have hlength := run_length_le_cost System.work Label.cost (fun _ _ _ _ => work_step) es s h
  have hinitial : (System.initial : System V).work = 0 := rfl
  rwa [cost_sum, hinitial, Nat.zero_add] at hlength

/-! ## Where a waiting call is -/

/-- Nothing times out and nothing is lost. -/
def Label.smooth : Label V → Bool
  | .clientTimeout | .expire _ | .proxyTimeout _ => false
  | .loseToClient _ | .loseToServer _ | .loseReply _ => false
  | _ => true

/-- The call with this reply address is on its way to the client actor, with it, on its way back or
answered. -/
inductive Place (s : System V) (address : ℕ) : Prop
  | requested (env : Envelope V) (h : env ∈ s.toClient ++ s.mailbox) (ha : env.sender = address)
  | forwarded (future : ℕ) (h : s.client = .awaiting address future)
  | answered (o : Obj V) (h : (address, o) ∈ s.replies)
  | completed (o : Obj V) (h : Ask.future s.asks address = some (.completed o))

/-- The ask of the client actor is on its way to a server, on its way back or answered. -/
inductive Answering (s : System V) (address : ℕ) : Prop
  | requested (env : Envelope V) (h : env ∈ s.toServer) (ha : env.sender = address)
  | answered (o : Obj V) (h : (address, o) ∈ s.replies)
  | completed (o : Obj V) (h : Ask.future s.asks address = some (.completed o))

theorem Place.mono {address : ℕ} (h : Place s address)
    (hrequests : ∀ e ∈ s.toClient ++ s.mailbox, e ∈ t.toClient ++ t.mailbox)
    (hclient : t.client = s.client) (hreplies : ∀ r ∈ s.replies, r ∈ t.replies)
    (hasks : ∀ o, Ask.future s.asks address = some (.completed o) →
      Ask.future t.asks address = some (.completed o)) : Place t address := by
  cases h with
  | requested env h ha => exact .requested env (hrequests env h) ha
  | forwarded future h => exact .forwarded future (hclient.trans h)
  | answered o h => exact .answered o (hreplies _ h)
  | completed o h => exact .completed o (hasks o h)

theorem Answering.mono {address : ℕ} (h : Answering s address)
    (hrequests : ∀ e ∈ s.toServer, e ∈ t.toServer) (hreplies : ∀ r ∈ s.replies, r ∈ t.replies)
    (hasks : ∀ o, Ask.future s.asks address = some (.completed o) →
      Ask.future t.asks address = some (.completed o)) : Answering t address := by
  cases h with
  | requested env h ha => exact .requested env (hrequests env h) ha
  | answered o h => exact .answered o (hreplies _ h)
  | completed o h => exact .completed o (hasks o h)

structure Carried (s : System V) : Prop where
  unfailed : Ask.Unfailed s.asks
  unthrown : ∀ inv ∈ s.invocations, inv.status ≠ .thrown
  places : ∀ inv ∈ s.invocations, inv.status = .awaiting → Place s inv.future
  client : ∀ sender future, s.client = .awaiting sender future → Answering s future

def Execution.Replies (services : ℕ → Services V) (x : Execution V) : Prop :=
  ∃ o, ((RpcServerActor.new (services x.server)).onReceive x.event x.outcome).reply = .ok o

theorem carried_initial : Carried (System.initial : System V) where
  unfailed _ h := nomatch h
  unthrown _ h := nomatch h
  places _ h := nomatch h
  client _ _ h := nomatch h

theorem Carried.invoke (hs : Carried s) (clz : JavaClass) (method : Method) (args : List (Ref V)) :
    Carried (s.invoke clz method args) where
  unfailed := hs.unfailed.fresh _
  unthrown inv hinv := by
    rcases List.mem_append.mp hinv with hinv | hinv
    · exact hs.unthrown inv hinv
    · rw [List.mem_singleton.mp hinv]
      nofun
  places inv hinv hw := by
    rcases List.mem_append.mp hinv with hinv | hinv
    · exact (hs.places inv hinv hw).mono (fun _ he => List.mem_cons_of_mem _ he) rfl
        (fun _ hr => hr) fun _ h => Ask.future_fresh _ h
    · rw [List.mem_singleton.mp hinv]
      exact .requested _ List.mem_cons_self rfl
  client sender future h := (hs.client sender future h).mono (fun _ he => he) (fun _ hr => hr)
    fun _ h => Ask.future_fresh _ h

theorem Carried.arrive (hs : Carried s) {k : ℕ} (h : s.arrive k = some t) : Carried t := by
  obtain ⟨⟨env, rest⟩, hp, rfl⟩ := Option.map_eq_some_iff.mp h
  have hmem : ∀ e ∈ s.toClient ++ s.mailbox, e ∈ rest ++ (s.mailbox ++ [env]) := by
    intro e he
    have hperm : (s.toClient ++ s.mailbox).Perm (rest ++ (s.mailbox ++ [env])) := by
      refine ((pick_perm hp).append_right s.mailbox).trans ?_
      rw [← List.append_assoc]
      exact (List.perm_append_singleton env (rest ++ s.mailbox)).symm
    exact hperm.mem_iff.mp he
  exact
    { unfailed := hs.unfailed
      unthrown := hs.unthrown
      places := fun inv hinv hw =>
        (hs.places inv hinv hw).mono hmem rfl (fun _ hr => hr) fun _ h => h
      client := fun sender future hc =>
        (hs.client sender future hc).mono (fun _ he => he) (fun _ hr => hr) fun _ h => h }

theorem Carried.clientReceive (hs : Carried s) (h : s.clientReceive = some t) : Carried t := by
  unfold System.clientReceive at h
  split at h
  next env rest hclient hmailbox =>
    cases h
    refine ⟨hs.unfailed.fresh _, hs.unthrown, fun inv hinv hw => ?_, fun sender future hc => ?_⟩
    · cases hs.places inv hinv hw with
      | requested e he ha =>
        rw [hmailbox, List.mem_append, List.mem_cons] at he
        rcases he with he | rfl | he
        · exact .requested e (List.mem_append_left _ he) ha
        · exact .forwarded s.asks.length (by rw [← ha])
        · exact .requested e (List.mem_append_right _ he) ha
      | forwarded future h =>
        rw [hclient] at h
        cases h
      | answered o h => exact .answered o h
      | completed o h => exact .completed o (Ask.future_fresh _ h)
    · cases hc
      exact .requested _ List.mem_cons_self rfl
  next => cases h

theorem Carried.clientResume (hs : Carried s) (h : s.clientResume = some t) : Carried t := by
  unfold System.clientResume at h
  split at h
  next => cases h
  next sender future hclient =>
    split at h
    next o ho =>
      cases h
      refine ⟨hs.unfailed, hs.unthrown, fun inv hinv hw => ?_, nofun⟩
      cases hs.places inv hinv hw with
      | requested e he ha => exact .requested e he ha
      | forwarded future' h =>
        rw [hclient] at h
        cases h
        exact .answered o List.mem_cons_self
      | answered o' h => exact .answered o' (List.mem_cons_of_mem _ h)
      | completed o' h => exact .completed o' h
    next hfailed =>
      obtain ⟨p, hp, hf⟩ := Option.map_eq_some_iff.mp hfailed
      exact absurd hf (hs.unfailed p (List.mem_of_getElem? hp))
    next => cases h

theorem Carried.serve (hs : Carried s) {k server : ℕ} {outcome : Outcome V}
    (h : s.serve services k server outcome = some t)
    (hreplies : ∀ x ∈ t.executions, x.Replies services) : Carried t := by
  obtain ⟨⟨env, rest⟩, hp, rfl⟩ := Option.map_eq_some_iff.mp h
  obtain ⟨o, ho⟩ := hreplies _ List.mem_cons_self
  have hreply : replyTo env.sender
      ((RpcServerActor.new (services server)).onReceive env.event outcome).reply
        = [(env.sender, o)] := by
    rw [ho]
    rfl
  refine ⟨hs.unfailed, hs.unthrown, fun inv hinv hw => ?_, fun sender future hc => ?_⟩
  · exact (hs.places inv hinv hw).mono (fun _ he => he) rfl
      (fun _ hr => List.mem_append_right _ hr) fun _ h => h
  · cases hs.client sender future hc with
    | requested e he ha =>
      rcases List.mem_cons.mp ((pick_perm hp).mem_iff.mp he) with rfl | he
      · refine .answered o (List.mem_append_left _ ?_)
        rw [hreply, ha]
        exact List.mem_singleton_self _
      · exact .requested e he ha
    | answered o' h => exact .answered o' (List.mem_append_right _ h)
    | completed o' h => exact .completed o' h

theorem Carried.deliverReply (hs : Carried s) (hi : Inv services s) {k : ℕ}
    (h : s.deliverReply k = some t) : Carried t := by
  obtain ⟨⟨reply, rest⟩, hp, rfl⟩ := Option.map_eq_some_iff.mp h
  obtain ⟨call, hcall, -⟩ := hi.replies reply (pick_mem hp)
  have hlt : reply.1 < s.asks.length := by
    have hlen := (List.getElem?_eq_some_iff.mp hcall).1
    rwa [Ask.askers, List.length_map] at hlen
  -- the reply that leaves the bag completes its future
  have hanswered : ∀ address o, (address, o) ∈ s.replies → (address, o) ∈ rest ∨
      ∃ c, Ask.future (Ask.settle s.asks reply.1 (.completed reply.2)) address
        = some (.completed c) := by
    intro address o ho
    rcases List.mem_cons.mp ((pick_perm hp).mem_iff.mp ho) with heq | ho
    · obtain ⟨c, hc⟩ := hs.unfailed.completed hlt reply.2
      exact .inr ⟨c, by rw [← hc, ← heq]⟩
    · exact .inl ho
  refine ⟨hs.unfailed.settle _ _, hs.unthrown, fun inv hinv hw => ?_, fun sender future hc => ?_⟩
  · cases hs.places inv hinv hw with
    | requested e he ha => exact .requested e he ha
    | forwarded future h => exact .forwarded future h
    | answered o ho =>
      rcases hanswered _ o ho with ho | ⟨c, hc⟩
      · exact .answered o ho
      · exact .completed c hc
    | completed o h => exact .completed o (Ask.completed_settle h _ _)
  · cases hs.client sender future hc with
    | requested e he ha => exact .requested e he ha
    | answered o ho =>
      rcases hanswered _ o ho with ho | ⟨c, hc⟩
      · exact .answered o ho
      · exact .completed c hc
    | completed o h => exact .completed o (Ask.completed_settle h _ _)

theorem mem_setStatus {i : ℕ} {status : Status V} {inv : Invocation V}
    (h : inv ∈ (s.setStatus i status).invocations) : inv ∈ s.invocations ∨ inv.status = status := by
  obtain ⟨j, hj⟩ := List.mem_iff_getElem?.mp h
  rw [System.setStatus, List.getElem?_modify] at hj
  obtain ⟨inv', hinv', rfl⟩ := Option.map_eq_some_iff.mp hj
  by_cases hij : i = j
  · rw [if_pos hij]
    exact .inr rfl
  · rw [if_neg hij]
    exact .inl (List.mem_of_getElem? hinv')

theorem Carried.proxyResume (hs : Carried s) {i : ℕ} (h : s.proxyResume i = some t) :
    Carried t := by
  unfold System.proxyResume at h
  split at h
  next event future hinv =>
    split at h
    next o ho =>
      cases h
      refine ⟨hs.unfailed, fun inv hinv => ?_, fun inv hinv hw => ?_, fun sender future hc => ?_⟩
      · rcases mem_setStatus hinv with hinv | hstatus
        · exact hs.unthrown inv hinv
        · rw [hstatus]
          nofun
      · rcases mem_setStatus hinv with hinv | hstatus
        · exact (hs.places inv hinv hw).mono (fun _ he => he) rfl (fun _ hr => hr) fun _ h => h
        · rw [hstatus] at hw
          cases hw
      · exact (hs.client sender future hc).mono (fun _ he => he) (fun _ hr => hr) fun _ h => h
    next hfailed =>
      obtain ⟨p, hp, hf⟩ := Option.map_eq_some_iff.mp hfailed
      exact absurd hf (hs.unfailed p (List.mem_of_getElem? hp))
    next => cases h
  next => cases h

theorem carried_step {e : Label V} (hs : Carried s) (hi : Inv services s) (he : e.smooth = true)
    (hreplies : ∀ x ∈ t.executions, x.Replies services) (h : step services s e = some t) :
    Carried t := by
  cases e with
  | invoke clz method args =>
    cases h
    exact hs.invoke clz method args
  | arrive k => exact hs.arrive h
  | clientReceive => exact hs.clientReceive h
  | clientResume => exact hs.clientResume h
  | serve k server outcome => exact hs.serve h hreplies
  | deliverReply k => exact hs.deliverReply hi h
  | proxyResume i => exact hs.proxyResume h
  | clientTimeout => cases he
  | expire address => cases he
  | proxyTimeout i => cases he
  | loseToClient k => cases he
  | loseToServer k => cases he
  | loseReply k => cases he

theorem carried_run {es : List (Label V)} (h : run (step services) .initial es = some s)
    (hes : ∀ e ∈ es, e.smooth = true) (hreplies : ∀ x ∈ s.executions, x.Replies services) :
    Carried s := by
  revert hreplies
  refine run_induction_of (L := fun e => e.smooth = true) (P := fun _ s =>
    (∀ x ∈ s.executions, x.Replies services) → Carried s) (fun _ => carried_initial) ?_ es s h hes
  intro es s e t hr ih he ht hreplies
  have hs := ih fun x hx => hreplies x ((history_step ht).2 x hx)
  exact carried_step hs (inv_reachable ⟨es, hr⟩) he hreplies ht

/-! ## Nothing left to do -/

/-- Only another invocation, a timeout or a loss could be next. -/
def Settled (services : ℕ → Services V) (s : System V) : Prop :=
  ∀ e : Label V, e.smooth = true → e.call? = none → step services s e = none

structure Quiet (s : System V) : Prop where
  toClient : s.toClient = []
  mailbox : s.client = .idle → s.mailbox = []
  toServer : s.toServer = []
  replies : s.replies = []

theorem Settled.quiet (h : Settled services s) : Quiet s where
  toClient := eq_nil_of_pick_none (Option.map_eq_none_iff.mp (h (.arrive 0) rfl rfl))
  mailbox hclient := by
    have hreceive := h .clientReceive rfl rfl
    simp only [step, System.clientReceive, hclient] at hreceive
    cases hm : s.mailbox with
    | nil => rfl
    | cons env rest => simp [hm] at hreceive
  toServer := eq_nil_of_pick_none (Option.map_eq_none_iff.mp (h (.serve 0 0 .throws) rfl rfl))
  replies := eq_nil_of_pick_none (Option.map_eq_none_iff.mp (h (.deliverReply 0) rfl rfl))

/-- The client actor is not blocked. -/
theorem Carried.client_idle (hs : Carried s) (h : Settled services s) : s.client = .idle := by
  cases hclient : s.client with
  | idle => rfl
  | awaiting sender future =>
    cases hs.client sender future hclient with
    | requested env he ha =>
      rw [h.quiet.toServer] at he
      cases he
    | answered o ho =>
      rw [h.quiet.replies] at ho
      cases ho
    | completed o ho =>
      have hresume := h .clientResume rfl rfl
      simp [step, System.clientResume, hclient, ho] at hresume

theorem Carried.returned (hs : Carried s) (h : Settled services s) {inv : Invocation V}
    (hinv : inv ∈ s.invocations) : ∃ o, inv.status = .returned o := by
  cases hstatus : inv.status with
  | returned o => exact ⟨o, rfl⟩
  | thrown => exact absurd hstatus (hs.unthrown inv hinv)
  | awaiting =>
    have hidle := hs.client_idle h
    cases hs.places inv hinv hstatus with
    | requested env he ha =>
      rw [h.quiet.toClient, h.quiet.mailbox hidle] at he
      cases he
    | forwarded future hclient =>
      rw [hidle] at hclient
      cases hclient
    | answered o ho =>
      rw [h.quiet.replies] at ho
      cases ho
    | completed o ho =>
      obtain ⟨i, hi⟩ := List.mem_iff_getElem?.mp hinv
      obtain ⟨event, future, status⟩ := inv
      cases hstatus
      have hresume := h (.proxyResume i) rfl rfl
      simp [step, System.proxyResume, hi, ho] at hresume

theorem Quiet.settled (h : Quiet s) (hidle : s.client = .idle)
    (hanswered : ∀ inv ∈ s.invocations, inv.status ≠ .awaiting) : Settled services s := by
  intro e he hc
  cases e with
  | invoke clz method args => cases hc
  | arrive k => simp [step, System.arrive, pick, h.toClient]
  | clientReceive => simp [step, System.clientReceive, h.mailbox hidle]
  | clientResume => simp [step, System.clientResume, hidle]
  | serve k server outcome => simp [step, System.serve, pick, h.toServer]
  | deliverReply k => simp [step, System.deliverReply, pick, h.replies]
  | proxyResume i =>
    cases hi : s.invocations[i]? with
    | none => simp [step, System.proxyResume, hi]
    | some inv =>
      obtain ⟨event, future, status⟩ := inv
      have hstatus := hanswered _ (List.mem_of_getElem? hi)
      cases status with
      | awaiting => exact absurd rfl hstatus
      | returned o => simp [step, System.proxyResume, hi]
      | thrown => simp [step, System.proxyResume, hi]
  | clientTimeout => cases he
  | expire address => cases he
  | proxyTimeout i => cases he
  | loseToClient k => cases he
  | loseToServer k => cases he
  | loseReply k => cases he

/-- A run has eight steps at most for each call, and one more for each expiry. When nothing is left
to do after a run without timeouts and losses in which the servers replied to what they executed,
every call has returned. -/
theorem calls_complete (services : ℕ → Services V) (es : List (Label V)) (s : System V)
    (h : run (step services) .initial es = some s) :
    es.length ≤ 8 * (calls es).length + (es.filter Label.expires).length ∧
      ((∀ e ∈ es, e.smooth = true) → (∀ x ∈ s.executions, x.Replies services) →
        Settled services s →
          s.invocations.length = (calls es).length ∧
            ∀ inv ∈ s.invocations, ∃ o, inv.status = .returned o) := by
  refine ⟨?_, fun hes hreplies hsettled => ⟨?_, fun inv hinv => ?_⟩⟩
  · have := length_run es s h
    omega
  · have hevents := congrArg List.length (events_run es s h)
    rwa [System.events, List.length_map, List.length_map] at hevents
  · exact (carried_run h hes hreplies).returned hsettled hinv

end Completion

/-- One call, from the proxy to a server and back. -/
def roundTrip : List (Label String) :=
  [.invoke exampleInterface sayHello [some (string "a")], .arrive 0, .clientReceive,
    .serve 0 1 (.returns (some (string "Hello a"))), .deliverReply 0, .clientResume,
    .deliverReply 0, .proxyResume 0]

theorem calls_complete_roundTrip :
    ∃ s, run (step exampleServices) .initial roundTrip = some s ∧ s.invocations.length = 1 ∧
      ∀ inv ∈ s.invocations, ∃ o, inv.status = .returned o := by
  refine ⟨_, rfl, (calls_complete exampleServices roundTrip _ rfl).2 (by decide) ?_ ?_⟩
  · intro x hx
    cases List.mem_singleton.mp hx
    exact ⟨string "Hello a", rfl⟩
  · refine Quiet.settled ⟨rfl, fun _ => rfl, rfl, rfl⟩ rfl fun inv hinv => ?_
    cases List.mem_singleton.mp hinv
    nofun

end SbtExample.Rpc
