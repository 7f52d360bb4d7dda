import SbtExample.Haver.Calls

/-! # Replies to any request

What `Service` and `Processor` do with bytes that need not come from a generated client: which call
they make, if any, how the reply is addressed, and where the two servers differ.
-/
set_option autoImplicit false
set_option maxHeartbeats 250000

namespace SbtExample.Haver
open Thrift Reader

/-! ## What a request asks for -/

section Requested
variable (p : TProtocol)

/-- The arguments and the end of the message. -/
def readToEnd {A : Type} (readArgs : TReader A) : TReader A := do
  let args ← readArgs
  p.readMessageEnd
  return args

/-- The message header and the call, when the request can be read to its end. -/
def requested : TReader (TMessage × Call) := do
  let msg ← p.readMessageBegin
  if msg.name = "hi" then do
    let _ ← readToEnd p (HiArgs.read p {})
    return (msg, .hi)
  else if msg.name = "add" then do
    let args ← readToEnd p (AddArgs.read p {})
    return (msg, .add args.a args.b)
  else if msg.name = "blocking_call" then do
    let _ ← readToEnd p (BlockingCallArgs.read p {})
    return (msg, .blockingCall)
  else throw (.application (Processor.invalidName msg.name))

/-- A message that carries the name and the number of the request back. A result or an internal
error is sent only when the interface was called, anything else refuses the request. -/
inductive Answered (name : String) (seqid : Int32) (called : Prop) : Bytes → Prop
  | reply (h : called) (result : Bytes) :
    Answered name seqid called (replyMessage p name seqid result)
  | failed (h : called) :
      Answered name seqid called (exceptionMessage p name seqid (Service.internalError name))
  | refused (x : TApplicationException)
      (h : x.type = TApplicationException.unknownMethod ∨
        x.type = TApplicationException.protocolError) :
      Answered name seqid called (exceptionMessage p name seqid x)

theorem Answered.mono {p : TProtocol} {name : String} {seqid : Int32} {P Q : Prop} {reply : Bytes}
    (h : Answered p name seqid P reply) (hPQ : P → Q) : Answered p name seqid Q reply := by
  cases h with
  | reply hp result => exact .reply (hPQ hp) result
  | failed hp => exact .failed (hPQ hp)
  | refused x hx => exact .refused x hx

end Requested

/-- The state of the interface after a call on it. -/
def ServiceIface.after {σ : Type} (iface : ServiceIface σ) : Call → σ → σ
  | .hi, s => (iface.hi s).2
  | .add a b, s => (iface.add a b s).2
  | .blockingCall, s => (iface.blockingCall s).2

/-! ## `Service` -/

section Function
variable {σ A V : Type} {p : TProtocol} {name : String} {readArgs : TReader A}
  {call : A → StateM σ (Answer V)} {result : Option V → Except Throwable Bytes} {iprot : Bytes}
  {seqid : Int32} {s : σ}

theorem respond_answered (p : TProtocol) (name : String) {called : Prop} (h : called)
    (result : Option V → Except Throwable Bytes) (future : Future (Option V)) :
    ∃ reply, Service.respond p name seqid result future = .ok reply ∧
      Answered p name seqid called reply := by
  rw [Service.respond]
  cases future.bind result with
  | ok bytes => exact ⟨_, rfl, .reply h bytes⟩
  | error e => exact ⟨_, rfl, .failed h⟩

theorem answerMessage_answered {called : Prop} (hcalled : called) {ans : Answer V} {reply : Bytes}
    (h : answerMessage p name seqid result ans = .ok reply) :
    Answered p name seqid called reply := by
  have hrespond (future : Future (Option V))
      (h : Service.respond p name seqid result future = .ok reply) :
      Answered p name seqid called reply := by
    obtain ⟨reply', h', hans⟩ := respond_answered p name hcalled result future
    cases h'.symm.trans h
    exact hans
  cases ans with
  | throws e => exact hrespond (.error e) h
  | null => cases h
  | future f => exact hrespond f h

theorem answerMessage_ne_endless (ans : Answer V) :
    answerMessage p name seqid result ans ≠ .error .endless := by
  have hrespond (future : Future (Option V)) :
      Service.respond p name seqid result future ≠ .error .endless := by
    obtain ⟨reply, h, -⟩ := respond_answered p name trivial result future
    rw [h]
    intro he
    cases he
  cases ans with
  | throws e => exact hrespond (.error e)
  | null =>
    intro he
    cases he
  | future f => exact hrespond _

/-- The ways an entry of `functionMap` goes without making the call: the arguments break the protocol,
something else is thrown while they are read, or the end of the message is not there. -/
theorem function_of_protocol {message : Option String} {rest : Bytes}
    (h : readArgs iprot = .error (.protocol message) rest) :
    Service.function p name readArgs call result iprot seqid
      = pure ((outcome p.readMessageEnd rest).map fun _ =>
          exceptionMessage p name seqid ⟨TApplicationException.protocolError, message⟩) := by
  rw [Service.function, h]

theorem function_of_error {e : Throwable} {rest : Bytes} (h : readArgs iprot = .error e rest)
    (he : ∀ message, e ≠ .protocol message) :
    Service.function p name readArgs call result iprot seqid = pure (.error e) := by
  rw [Service.function, h]
  cases e with
  | protocol message => exact absurd rfl (he message)
  | application x => rfl
  | other name => rfl
  | endless => rfl

theorem function_of_end {args : A} {rest : Bytes} {e : Throwable}
    (h : readArgs iprot = .ok args rest)
    (hend : outcome p.readMessageEnd rest = .error e) :
    Service.function p name readArgs call result iprot seqid = pure (.error e) := by
  rw [Service.function, h]
  simp only [hend]

theorem outcome_readToEnd_ok {args : A} {rest : Bytes} (h : readArgs iprot = .ok args rest) :
    (readToEnd p readArgs).outcome iprot = (outcome p.readMessageEnd rest).map fun _ => args := by
  rw [outcome, outcome, readToEnd, bind_ok h]
  cases hend : p.readMessageEnd rest with
  | ok _ t =>
    rw [bind_ok hend]
    rfl
  | error e t =>
    rw [bind_error hend]
    rfl

theorem outcome_readToEnd_error {e : Throwable} {rest : Bytes}
    (h : readArgs iprot = .error e rest) :
    (readToEnd p readArgs).outcome iprot = .error e := by
  rw [outcome, readToEnd, bind_error h]

theorem function_answered {reply : Bytes}
    (h : (Service.function p name readArgs call result iprot seqid s).1 = .ok reply) :
    Answered p name seqid (∃ args, (readToEnd p readArgs).outcome iprot = .ok args) reply := by
  cases hread : readArgs iprot with
  | ok args rest =>
    cases hend : outcome p.readMessageEnd rest with
    | ok u =>
      rw [function_of_ok hread hend] at h
      refine answerMessage_answered ⟨args, ?_⟩ h
      rw [outcome_readToEnd_ok hread, hend]
      rfl
    | error e =>
      rw [function_of_end hread hend] at h
      cases h
  | error e rest =>
    by_cases he : ∃ message, e = .protocol message
    · obtain ⟨message, rfl⟩ := he
      rw [function_of_protocol hread] at h
      cases hend : outcome p.readMessageEnd rest with
      | ok u =>
        rw [hend] at h
        cases h
        exact .refused _ (.inr rfl)
      | error e' =>
        rw [hend] at h
        cases h
    · rw [function_of_error hread fun message hm => he ⟨message, hm⟩] at h
      cases h

/-- The interface is called when the arguments can be read to the end of the message. -/
theorem function_state :
    (Service.function p name readArgs call result iprot seqid s).2
      = match (readToEnd p readArgs).outcome iprot with
        | .ok args => (call args s).2
        | .error _ => s := by
  cases hread : readArgs iprot with
  | ok args rest =>
    rw [outcome_readToEnd_ok hread]
    cases hend : outcome p.readMessageEnd rest with
    | ok u =>
      rw [function_of_ok hread hend]
      rfl
    | error e =>
      rw [function_of_end hread hend]
      rfl
  | error e rest =>
    rw [outcome_readToEnd_error hread]
    by_cases he : ∃ message, e = .protocol message
    · obtain ⟨message, rfl⟩ := he
      rw [function_of_protocol hread]
      rfl
    · rw [function_of_error hread fun message hm => he ⟨message, hm⟩]
      rfl

theorem function_ne_endless (hargs : Shrinks .endless readArgs)
    (hmsg : Shrinks .endless p.readMessageEnd) :
    (Service.function p name readArgs call result iprot seqid s).1 ≠ .error .endless := by
  intro h
  cases hread : readArgs iprot with
  | ok args rest =>
    cases hend : outcome p.readMessageEnd rest with
    | ok u =>
      rw [function_of_ok hread hend] at h
      exact answerMessage_ne_endless _ h
    | error e =>
      rw [function_of_end hread hend] at h
      cases h
      exact hmsg.outcome_ne rest hend
  | error e rest =>
    by_cases he : ∃ message, e = .protocol message
    · obtain ⟨message, rfl⟩ := he
      rw [function_of_protocol hread] at h
      cases hend : outcome p.readMessageEnd rest with
      | ok u =>
        rw [hend] at h
        cases h
      | error e' =>
        rw [hend] at h
        cases h
        exact hmsg.outcome_ne rest hend
    · rw [function_of_error hread fun message hm => he ⟨message, hm⟩] at h
      cases h
      exact hargs.ends hread

end Function

/-! ## Every request -/

section Request
variable {σ : Type} {p : TProtocol}

theorem shrinks_readHiArgs (codec : p.Codec) : Shrinks .endless (HiArgs.read p {}) := by
  change Shrinks .endless (readStruct p (caseDefault p) (⟨⟩ : NoArgs))
  exact shrinks_readStruct codec (fun this field => shrinks_caseDefault codec this field) _

theorem shrinks_readAddArgs (codec : p.Codec) : Shrinks .endless (AddArgs.read p {}) := by
  change Shrinks .endless (readStruct p (AddArgs.onField p) _)
  refine shrinks_readStruct codec (fun this field => ?_) _
  rw [AddArgs.onField]
  split_ifs
  · exact shrinks_caseI32 codec _ this field
  · exact shrinks_caseI32 codec _ this field
  · exact shrinks_caseDefault codec this field

/-- What `apply` comes to, by the name of the message. -/
theorem apply_of_function {iface : ServiceIface σ} {request iprot : Bytes} {msg : TMessage}
    {fn : Bytes → Int32 → StateM σ (Future Bytes)}
    (h : p.readMessageBegin request = .ok msg iprot)
    (hfn : Service.functionMap p iface msg.name = some fn) :
    Service.apply p iface request = fn iprot msg.seqid := by
  rw [Service.apply, h]
  simp only [hfn]

theorem apply_of_unknown {iface : ServiceIface σ} {request iprot : Bytes} {msg : TMessage}
    (h : p.readMessageBegin request = .ok msg iprot)
    (hfn : Service.functionMap p iface msg.name = none) :
    Service.apply p iface request
      = pure ((outcome (do p.skip TType.struct; p.readMessageEnd) iprot).map fun _ =>
          exceptionMessage p msg.name msg.seqid (Processor.invalidName msg.name)) := by
  rw [Service.apply, h]
  simp only [hfn, outcome]
  cases (do p.skip TType.struct; p.readMessageEnd : TReader Unit) iprot <;> rfl

theorem outcome_requested {request iprot : Bytes} {msg : TMessage} {A : Type} {readArgs : TReader A}
    {toCall : A → Call} (h : p.readMessageBegin request = .ok msg iprot)
    (hbody : (if msg.name = "hi" then do
          let _ ← readToEnd p (HiArgs.read p {})
          return (msg, Call.hi)
        else if msg.name = "add" then do
          let args ← readToEnd p (AddArgs.read p {})
          return (msg, .add args.a args.b)
        else if msg.name = "blocking_call" then do
          let _ ← readToEnd p (BlockingCallArgs.read p {})
          return (msg, .blockingCall)
        else throw (.application (Processor.invalidName msg.name)))
      = (do
          let args ← readToEnd p readArgs
          return (msg, toCall args) : TReader (TMessage × Call))) :
    (requested p).outcome request
      = ((readToEnd p readArgs).outcome iprot).map fun args => (msg, toCall args) := by
  rw [outcome, requested, bind_ok h, hbody, outcome]
  cases hargs : readToEnd p readArgs iprot with
  | ok args rest =>
    rw [bind_ok hargs]
    rfl
  | error e rest =>
    rw [bind_error hargs]
    rfl

/-- What `Service` may do with a request. -/
structure Handled (p : TProtocol) (iface : ServiceIface σ) (request : Bytes) (s : σ)
    (r : Future Bytes × σ) : Prop where
  /-- The interface is called once when the request can be read, and is left alone otherwise. -/
  state : r.2 = match (requested p).outcome request with
    | .ok (_, c) => iface.after c s
    | .error _ => s
  answered : ∀ reply, r.1 = .ok reply → ∃ msg rest, p.readMessageBegin request = .ok msg rest ∧
    Answered p msg.name msg.seqid (∃ c, (requested p).outcome request = .ok (msg, c)) reply
  ends : r.1 ≠ .error .endless

theorem handled_known {A V : Type} {iface : ServiceIface σ} {request iprot : Bytes}
    {msg : TMessage} {s : σ} (readArgs : TReader A) (call : A → StateM σ (Answer V))
    (result : Option V → Except Throwable Bytes) (toCall : A → Call)
    (codec : p.Codec) (h : p.readMessageBegin request = .ok msg iprot)
    (hfn : Service.functionMap p iface msg.name
      = some (Service.function p msg.name readArgs call result))
    (hargs : Shrinks .endless readArgs)
    (hrequested : (requested p).outcome request
      = ((readToEnd p readArgs).outcome iprot).map fun args => (msg, toCall args))
    (hcall : ∀ args, (call args s).2 = iface.after (toCall args) s) :
    Handled p iface request s (Service.apply p iface request s) := by
  rw [apply_of_function h hfn]
  refine ⟨?_, fun reply hreply => ⟨msg, iprot, h, ?_⟩,
    function_ne_endless hargs codec.shrinks_messageEnd⟩
  · rw [function_state, hrequested]
    cases (readToEnd p readArgs).outcome iprot with
    | ok args => exact hcall args
    | error e => rfl
  · have hans := function_answered hreply
    rw [hrequested]
    refine hans.mono fun ⟨args, hok⟩ => ⟨toCall args, ?_⟩
    rw [hok]
    rfl

theorem handled_unknown {iface : ServiceIface σ} {request iprot : Bytes} {msg : TMessage} {s : σ}
    (codec : p.Codec) (h : p.readMessageBegin request = .ok msg iprot)
    (hname : msg.name ≠ "hi" ∧ msg.name ≠ "add" ∧ msg.name ≠ "blocking_call") :
    Handled p iface request s (Service.apply p iface request s) := by
  have hfn : Service.functionMap p iface msg.name = none := by
    rw [Service.functionMap, if_neg hname.1, if_neg hname.2.1, if_neg hname.2.2]
  have hrequested : (requested p).outcome request
      = .error (.application (Processor.invalidName msg.name)) := by
    rw [outcome, requested, bind_ok h, if_neg hname.1, if_neg hname.2.1, if_neg hname.2.2]
    rfl
  have hskip : Shrinks .endless (do p.skip TType.struct; p.readMessageEnd : TReader Unit) :=
    (codec.shrinks_skip _).bind fun _ => codec.shrinks_messageEnd
  have hends := hskip.outcome_ne iprot
  rw [apply_of_unknown h hfn]
  refine ⟨?_, fun reply hreply => ⟨msg, iprot, h, ?_⟩, ?_⟩
  · rw [hrequested]
    rfl
  · change Except.map _ _ = _ at hreply
    cases hout : outcome (do p.skip TType.struct; p.readMessageEnd) iprot with
    | ok u =>
      rw [hout] at hreply
      cases hreply
      exact .refused _ (.inl rfl)
    | error e =>
      rw [hout] at hreply
      cases hreply
  · change Except.map _ _ ≠ _
    cases hout : outcome (do p.skip TType.struct; p.readMessageEnd) iprot with
    | ok u =>
      intro he
      cases he
    | error e =>
      intro he
      cases he
      exact hends hout

/-- On any bytes `Service` calls the interface at most once, and only for a request it could read
to the end; a reply carries the name and the number of the request; and the loops that read the
request come to an end. -/
theorem service_handles (lawful : p.Lawful) (iface : ServiceIface σ) (request : Bytes) (s : σ) :
    Handled p iface request s (Service.apply p iface request s) := by
  have codec := lawful.toCodec
  have hno := shrinks_readHiArgs codec
  cases h : p.readMessageBegin request with
  | error e rest =>
    have hrequested : (requested p).outcome request = .error e := by
      rw [outcome, requested, bind_error h]
    rw [Service.apply, h]
    refine ⟨?_, fun reply hreply => (by cases hreply), fun he => ?_⟩
    · rw [hrequested]
      rfl
    · cases he
      exact codec.shrinks_message.ends h
  | ok msg iprot =>
    by_cases hhi : msg.name = "hi"
    · refine handled_known (HiArgs.read p {}) (fun _ => iface.hi)
        (fun success => .ok (HiResult.write p (HiResult.setSuccessIsSet ⟨success⟩ true)))
        (fun _ => .hi) codec h ?_ hno (outcome_requested h ?_) fun _ => rfl
      · rw [Service.functionMap, if_pos hhi, hhi]
        rfl
      · rw [if_pos hhi]
    · by_cases hadd : msg.name = "add"
      · refine handled_known (AddArgs.read p {}) (fun args => iface.add args.a args.b)
          (Service.unbox (AddResult.write p)) (fun args => .add args.a args.b) codec h ?_
          (shrinks_readAddArgs codec) (outcome_requested h ?_) fun _ => rfl
        · rw [Service.functionMap, if_neg hhi, if_pos hadd, hadd]
          rfl
        · rw [if_neg hhi, if_pos hadd]
      · by_cases hblock : msg.name = "blocking_call"
        · refine handled_known (BlockingCallArgs.read p {}) (fun _ => iface.blockingCall)
            (Service.unbox (BlockingCallResult.write p)) (fun _ => .blockingCall) codec h ?_ hno
            (outcome_requested h ?_) fun _ => rfl
          · rw [Service.functionMap, if_neg hhi, if_neg hadd, if_pos hblock, hblock]
            rfl
          · rw [if_neg hhi, if_neg hadd, if_pos hblock]
        · exact handled_unknown codec h ⟨hhi, hadd, hblock⟩

/-- On a message that is cut off after its header. -/
theorem service_handles_truncated :
    Handled Binary.protocol countingServer (Binary.writeMessageBegin ⟨"add", TMessageType.call, 7⟩)
      0
      (Service.apply Binary.protocol countingServer
        (Binary.writeMessageBegin ⟨"add", TMessageType.call, 7⟩) 0) :=
  service_handles Binary.lawful countingServer _ 0

end Request

end SbtExample.Haver
