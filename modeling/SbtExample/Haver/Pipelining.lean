import SbtExample.Haver.Connection

/-! # Pipelined calls

The streams of a connection hold the calls that wait and the replies that have not been received,
numbered one after the other. The client keeps the number of its last call only: as long as no
`recv_*` has found its reply out of sequence, the next one answers the last call exactly when every
earlier call has been received, and is out of sequence otherwise.
-/
set_option autoImplicit false
set_option maxHeartbeats 250000

namespace SbtExample.Haver
open Thrift Reader Transition

/-! ## Every run -/

section Runs
variable {σ : Type} {p : TProtocol} {iface : Iface σ}

def Event.call? : Event → Option Call
  | .send c => some c
  | _ => none

def Event.isRecv : Event → Bool
  | .recv _ _ => true
  | _ => false

/-- The calls that a run sends. -/
def sent (es : List Event) : List Call := es.filterMap Event.call?

/-- How many replies it reads. -/
def received (es : List Event) : ℕ := es.countP Event.isRecv

/-- No `recv_*` of the run has found its reply out of sequence. -/
def InSequence (es : List Event) : Prop :=
  ∀ m, .recv m (.error (.application (outOfSequence m.name))) ∉ es

/-- The first calls are `served`, the others `waiting`; the first `k` replies have been received. -/
structure Pipelined (p : TProtocol) (iface : Iface σ) (s₀ : σ) (calls : List Call) (k : ℕ)
    (s : Connection σ) (served : List (Call × Option Value)) (waiting : List Call) : Prop where
  sent : calls = served.map Prod.fst ++ waiting
  received : k ≤ served.length
  answers : iface.answers s₀ (served.map Prod.fst) = served.map fun x => .ok x.2
  seqid : s.seqid = .ofNat calls.length
  replies : s.replies = repliesFrom p k (served.drop k)
  live : s.serving = true → s.requests = requestsFrom p served.length waiting ∧
    s.iface = iface.afterAll s₀ (served.map Prod.fst)
  carried : ∃ cs, served.map Prod.fst <+: cs ∧ cs <+: calls ∧ s.iface = iface.afterAll s₀ cs

theorem Pipelined.init (s₀ : σ) : Pipelined p iface s₀ [] 0 { iface := s₀ } [] [] where
  sent := rfl
  received := le_rfl
  answers := rfl
  seqid := rfl
  replies := rfl
  live _ := ⟨rfl, rfl⟩
  carried := ⟨[], List.prefix_rfl, List.prefix_rfl, rfl⟩

section Steps
variable {s₀ : σ} {calls : List Call} {k : ℕ} {s t : Connection σ}
  {served : List (Call × Option Value)} {waiting : List Call}

theorem Pipelined.send (h : Pipelined p iface s₀ calls k s served waiting) {c : Call}
    (hstep : s.step p iface (.send c) = some t) :
    Pipelined p iface s₀ (calls ++ [c]) k t served (waiting ++ [c]) := by
  have hseqid : s.seqid + 1 = .ofNat (calls.length + 1) := by
    rw [h.seqid, Int32.ofNat_add]
    rfl
  cases hstep
  rw [Connection.client, sendCall_eq]
  obtain ⟨cs, hserved, hcs, hiface⟩ := h.carried
  refine ⟨?_, h.received, h.answers, ?_, h.replies, fun hserving => ⟨?_, (h.live hserving).2⟩,
    cs, hserved, hcs.trans (List.prefix_append _ _), hiface⟩
  · rw [h.sent, List.append_assoc]
  · rw [List.length_append]
    exact hseqid
  · change s.requests ++ callOf p (s.seqid + 1) c = _
    rw [hseqid, (h.live hserving).1, requestsFrom_concat, h.sent, List.length_append,
      List.length_map]

theorem Pipelined.serve (codec : p.Codec) (h : Pipelined p iface s₀ calls k s served waiting)
    (hstep : s.step p iface .serve = some t) :
    ∃ served' waiting', Pipelined p iface s₀ calls k t served' waiting' := by
  rw [Connection.step] at hstep
  split_ifs at hstep with hguard
  obtain ⟨hrequests, hiface⟩ := h.live hguard.1
  cases waiting with
  | nil => exact absurd hrequests hguard.2
  | cons c waiting =>
    have hserver : s.server
        = ⟨callOf p (.ofNat (served.length + 1)) c ++ requestsFrom p (served.length + 1) waiting,
            s.replies, s.iface⟩ := by
      rw [Connection.server, hrequests]
      rfl
    rw [hserver, process_call codec] at hstep
    have hcarried : served.map Prod.fst ++ [c] <+: calls :=
      ⟨waiting, by rw [h.sent, List.append_assoc]; rfl⟩
    have hafter : (iface.perform c s.iface).2 = iface.afterAll s₀ (served.map Prod.fst ++ [c]) := by
      rw [Iface.afterAll_concat, ← hiface]
    match hperform : iface.perform c s.iface with
    | (.error e, s') =>
      rw [hperform] at hstep
      cases hstep
      exact ⟨served, c :: waiting, h.sent, h.received, h.answers, h.seqid, h.replies,
        fun hserving => absurd hserving Bool.false_ne_true, _, List.prefix_append _ [c], hcarried,
        (congrArg Prod.snd hperform).symm.trans hafter⟩
    | (.ok v, s') =>
      rw [hperform] at hstep
      cases hstep
      have hcalls : (served ++ [(c, v)]).map Prod.fst = served.map Prod.fst ++ [c] := by
        rw [List.map_append]
        rfl
      have hperform' : iface.perform c (iface.afterAll s₀ (served.map Prod.fst)) = (.ok v, s') := by
        rw [← hiface, hperform]
      have hiface' : s' = iface.afterAll s₀ ((served ++ [(c, v)]).map Prod.fst) := by
        rw [hcalls, ← hafter, hperform]
      refine ⟨served ++ [(c, v)], waiting, ?_, ?_, ?_, h.seqid, ?_, fun _ => ⟨?_, hiface'⟩,
        _, List.prefix_rfl, ?_, hiface'⟩
      · rw [hcalls, List.append_assoc]
        exact h.sent
      · rw [List.length_append]
        exact Nat.le_add_right_of_le h.received
      · rw [hcalls, Iface.answers_append, h.answers, List.map_append, Iface.answers, hperform']
        rfl
      · rw [List.drop_append_of_le_length h.received, repliesFrom_concat, ← h.replies,
          List.length_drop, Nat.add_sub_cancel' h.received]
        rfl
      · rw [List.length_append]
        rfl
      · rw [hcalls]
        exact hcarried

theorem ofNat_eq_iff (m n : ℕ) : Int32.ofNat m = Int32.ofNat n ↔ m ≡ n [MOD 2 ^ 32] := by
  rw [← Int32.toBitVec_inj, ← BitVec.toNat_inj]
  exact Iff.rfl

/-- The next reply, if there is one, is that of call number `k`. -/
theorem Pipelined.client_eq (h : Pipelined p iface s₀ calls k s served waiting)
    (hreplies : s.replies ≠ []) :
    ∃ c v, served[k]? = some (c, v) ∧ s.client
      = ⟨replyOf p (.ofNat (k + 1)) c.method v ++ repliesFrom p (k + 1) (served.drop (k + 1)),
          s.requests, .ofNat calls.length⟩ := by
  have hdrop : served.drop k ≠ [] := by
    intro hnil
    rw [h.replies, hnil] at hreplies
    exact hreplies rfl
  have hk : k < served.length := lt_of_not_ge fun hle => hdrop (List.drop_eq_nil_of_le hle)
  refine ⟨served[k].1, served[k].2, List.getElem?_eq_getElem hk, ?_⟩
  rw [Connection.client, h.replies, h.seqid, List.drop_eq_getElem_cons hk]
  rfl

/-- The next `recv_*` takes the oldest reply, if that answers the last call, and the header of it
otherwise. -/
theorem Pipelined.recv (codec : p.Codec) (h : Pipelined p iface s₀ calls k s served waiting)
    (fits : ∀ x ∈ served, ∀ v, x.2 = some v → v.Fits) {m : Method} {r : Except Throwable Value}
    (hstep : s.step p iface (.recv m r) = some t) :
    ∃ c v, served[k]? = some (c, v) ∧
      (k + 1 ≡ calls.length [MOD 2 ^ 32] → r = seen m v ∧
        Pipelined p iface s₀ calls (k + 1) t served waiting) ∧
      (¬ k + 1 ≡ calls.length [MOD 2 ^ 32] →
        r = .error (.application (outOfSequence m.name)) ∧ ∃ rest, t.replies =
          writeStruct p (c.method.name ++ "_result") (resultFields v)
            ++ (p.writeMessageEnd ++ rest)) := by
  rw [Connection.step] at hstep
  split_ifs at hstep with hguard
  obtain ⟨hreplies, hr⟩ := hguard
  obtain ⟨c, v, hget, hclient⟩ := h.client_eq hreplies
  have hmem : (c, v) ∈ served := List.mem_of_getElem? hget
  refine ⟨c, v, hget, fun hseq => ?_, fun hseq => ?_⟩
  · rw [(ofNat_eq_iff _ _).mpr hseq] at hclient
    rw [hclient, recvMethod_reply codec m c.method (fits _ hmem)] at hr hstep
    cases hstep
    have hk : k < served.length := (List.getElem?_eq_some_iff.mp hget).1
    exact ⟨hr.symm, h.sent, hk, h.answers, rfl, rfl, h.live, h.carried⟩
  · have hne : Int32.ofNat (k + 1) ≠ .ofNat calls.length := fun he => hseq ((ofNat_eq_iff _ _).mp he)
    rw [hclient, recvMethod_sequence codec m c.method v hne] at hr hstep
    cases hstep
    exact ⟨hr.symm, repliesFrom p (k + 1) (served.drop (k + 1)), rfl⟩

end Steps

/-- What the interface answers can be written. -/
theorem answers_fit (fits : ∀ s text, (iface.hi s).1 = .ok (some text) → Fits text) (s : σ)
    (cs : List Call) : ∀ v, .ok (some v) ∈ iface.answers s cs → v.Fits := by
  induction cs generalizing s with
  | nil =>
    intro v hv
    cases hv
  | cons c cs ih =>
    intro v hv
    rcases List.mem_cons.mp hv with hv | hv
    · match v with
      | .int n => trivial
      | .text t =>
        cases c with
        | hi =>
          change _ = Except.map (Option.map Value.text) (iface.hi s).1 at hv
          match hhi : (iface.hi s).1 with
          | .error e =>
            rw [hhi] at hv
            cases hv
          | .ok none =>
            rw [hhi] at hv
            cases hv
          | .ok (some text) =>
            rw [hhi] at hv
            cases hv
            exact fits s t hhi
        | add a b =>
          change _ = Except.map (fun n => some (Value.int n)) (iface.add a b s).1 at hv
          cases h : (iface.add a b s).1 <;> rw [h] at hv <;> cases hv
        | blockingCall =>
          change _ = Except.map (fun n => some (Value.int n)) (iface.blockingCall s).1 at hv
          cases h : (iface.blockingCall s).1 <;> rw [h] at hv <;> cases hv
    · exact ih _ v hv

theorem Pipelined.fits {s₀ : σ} {calls : List Call} {k : ℕ} {s : Connection σ}
    {served : List (Call × Option Value)} {waiting : List Call}
    (h : Pipelined p iface s₀ calls k s served waiting)
    (fits : ∀ s text, (iface.hi s).1 = .ok (some text) → Fits text) :
    ∀ x ∈ served, ∀ v, x.2 = some v → v.Fits := by
  intro x hx v hv
  refine answers_fit fits s₀ (served.map Prod.fst) v ?_
  rw [h.answers, List.mem_map]
  exact ⟨x, hx, by rw [hv]⟩

theorem sent_concat (es : List Event) (e : Event) :
    sent (es ++ [e]) = sent es ++ e.call?.toList := by
  rw [sent, List.filterMap_append]
  cases e <;> rfl

theorem received_concat (es : List Event) (e : Event) :
    received (es ++ [e]) = received es + if e.isRecv then 1 else 0 := by
  rw [received, List.countP_append]
  cases e <;> rfl

theorem InSequence.init {es : List Event} {e : Event} (h : InSequence (es ++ [e])) :
    InSequence es := fun m hm => h m (List.mem_append_left _ hm)

theorem run_pipelined (lawful : p.Lawful)
    (fits : ∀ s text, (iface.hi s).1 = .ok (some text) → Fits text) (s₀ : σ) (es : List Event)
    (s : Connection σ) (h : run (Connection.step p iface) { iface := s₀ } es = some s) :
    InSequence es → ∃ served waiting,
      Pipelined p iface s₀ (sent es) (received es) s served waiting := by
  refine run_induction (P := fun es s => InSequence es → ∃ served waiting,
    Pipelined p iface s₀ (sent es) (received es) s served waiting)
    (fun _ => ⟨[], [], .init s₀⟩) ?_ es s h
  intro es s e t _ ih hstep hseq
  obtain ⟨served, waiting, hinv⟩ := ih hseq.init
  rw [sent_concat, received_concat]
  cases e with
  | send c => exact ⟨served, waiting ++ [c], hinv.send hstep⟩
  | serve =>
    rw [show Event.serve.call?.toList = [] from rfl, List.append_nil]
    exact hinv.serve lawful.toCodec hstep
  | recv m r =>
    obtain ⟨c, v, -, hin, hout⟩ := hinv.recv lawful.toCodec (hinv.fits fits) hstep
    rw [show (Event.recv m r).call?.toList = [] from rfl, List.append_nil]
    by_cases hmod : received es + 1 ≡ (sent es).length [MOD 2 ^ 32]
    · exact ⟨served, waiting, (hin hmod).2⟩
    · refine absurd ?_ (hseq m)
      rw [← (hout hmod).1]
      exact List.mem_append_right _ (List.mem_singleton_self _)

/-- In any interleaving, as long as no earlier `recv_*` was out of sequence, a `recv_*` reads the
reply to the oldest call that has not been received, and gives its answer only if that is the last
call of the client too, up to a round of the 32-bit sequence numbers. With more than one call in
flight it is out of sequence, and then the body of that reply is what the next `recv_*` finds. The
interface has carried out the first calls, each once. -/
theorem recv_answers_last (lawful : p.Lawful)
    (fits : ∀ s text, (iface.hi s).1 = .ok (some text) → Fits text) (s₀ : σ) (es : List Event)
    (m : Method) (r : Except Throwable Value) (t : Connection σ) (hseq : InSequence es)
    (hrun : run (Connection.step p iface) { iface := s₀ } (es ++ [.recv m r]) = some t) :
    (∃ c v, (sent es)[received es]? = some c ∧
      (iface.answers s₀ (sent es))[received es]? = some (.ok v) ∧
      (r = if received es + 1 ≡ (sent es).length [MOD 2 ^ 32] then seen m v
        else .error (.application (outOfSequence m.name))) ∧
      (¬ received es + 1 ≡ (sent es).length [MOD 2 ^ 32] → ∃ rest, t.replies =
        writeStruct p (c.method.name ++ "_result") (resultFields v)
          ++ (p.writeMessageEnd ++ rest))) ∧
      ∃ cs, cs <+: sent es ∧ received es < cs.length ∧ t.iface = iface.afterAll s₀ cs := by
  rw [run_concat] at hrun
  obtain ⟨s, hs, hstep⟩ := Option.bind_eq_some_iff.mp hrun
  obtain ⟨served, waiting, hinv⟩ := run_pipelined lawful fits s₀ es s hs hseq
  obtain ⟨c, v, hget, hin, hout⟩ := hinv.recv lawful.toCodec (hinv.fits fits) hstep
  have hk : received es < served.length := (List.getElem?_eq_some_iff.mp hget).1
  refine ⟨⟨c, v, ?_, ?_, ?_, fun hmod => (hout hmod).2⟩, ?_⟩
  · rw [hinv.sent, List.getElem?_append_left (by rwa [List.length_map]), List.getElem?_map, hget]
    rfl
  · rw [hinv.sent, Iface.answers_append, hinv.answers, List.getElem?_append_left
      (by rwa [List.length_map]), List.getElem?_map, hget]
    rfl
  · split_ifs with hmod
    · exact (hin hmod).1
    · exact (hout hmod).1
  · obtain ⟨cs, hserved, hcs, hiface⟩ := hinv.carried
    rw [Connection.step] at hstep
    split_ifs at hstep
    cases hstep
    refine ⟨cs, hcs, hk.trans_le ?_, hiface⟩
    have := hserved.length_le
    rwa [List.length_map] at this

/-- One call is received; then two are sent before the first of them is received. -/
def pipelinedEvents : List Event :=
  [.send (.add 40 2), .serve, .recv .blockingCall (.ok (.int 42)), .send .hi, .send (.add 1 1),
    .serve]

theorem recv_answers_last_pipelined :
    ∃ t, run (Connection.step Binary.protocol countingServer.blocking) { iface := 0 }
        (pipelinedEvents ++ [.recv .hi (.error (.application (outOfSequence "hi")))]) = some t ∧
      ∃ cs, cs <+: sent pipelinedEvents ∧ 1 < cs.length ∧
        t.iface = countingServer.blocking.afterAll 0 cs := by
  have hfits : ∀ s text, (countingServer.blocking.hi s).1 = .ok (some text) → Fits text :=
    fun s text h => HaverServer.fits countingSurroundings s text (congrArg Answer.future h)
  have hseq : InSequence pipelinedEvents := by
    intro m hm
    simp [pipelinedEvents] at hm
  have hrun : (run (Connection.step Binary.protocol countingServer.blocking) { iface := 0 }
      (pipelinedEvents ++ [.recv .hi (.error (.application (outOfSequence "hi")))])).isSome := by
    decide +kernel
  obtain ⟨t, ht⟩ := Option.isSome_iff_exists.mp hrun
  exact ⟨t, ht, (recv_answers_last Binary.lawful hfits 0 pipelinedEvents .hi _ t hseq ht).2⟩

end Runs

end SbtExample.Haver
