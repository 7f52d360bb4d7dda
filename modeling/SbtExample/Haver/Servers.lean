import SbtExample.Haver.Replies

/-! # The blocking server and the asynchronous one

`Processor` and `Service` in front of the same interface: `Processor` waits for each answer. They
send the same bytes for every request, except when the call itself fails: `Service` then reports an
internal error, and the exception leaves `Processor` before anything is written.
-/
set_option autoImplicit false
set_option maxHeartbeats 250000

namespace SbtExample.Haver
open Thrift Reader

/-! ## Waiting for an answer -/

/-- `Await.result` of what the interface returned. -/
def Answer.await {α : Type} : Answer α → Except Throwable (Option α)
  | .throws e => .error e
  | .null => .error nullPointer
  | .future f => f

def unboxed : Option Int32 → Except Throwable Int32
  | some n => .ok n
  | none => .error nullPointer

section Blocking
variable {σ : Type}

/-- The asynchronous interface behind the blocking one. -/
def ServiceIface.blocking (iface : ServiceIface σ) : Iface σ where
  hi := Answer.await <$> iface.hi
  add a b := (fun ans => ans.await.bind unboxed) <$> iface.add a b
  blockingCall := (fun ans => ans.await.bind unboxed) <$> iface.blockingCall

def thrown {α : Type} : Except Throwable α → Option Throwable
  | .ok _ => none
  | .error e => some e

/-- What a call on the blocking interface throws. -/
def Iface.failure (iface : Iface σ) : Call → σ → Option Throwable
  | .hi, s => thrown (iface.hi s).1
  | .add a b, s => thrown (iface.add a b s).1
  | .blockingCall, s => thrown (iface.blockingCall s).1

/-- What the call that the request asks for throws. -/
def failureOn (p : TProtocol) (iface : Iface σ) (request : Bytes) (s : σ) : Option Throwable :=
  match (requested p).outcome request with
  | .ok (_, c) => iface.failure c s
  | .error _ => none

/-- `Processor` has written the reply of `Service`, or throws what its future failed with. -/
inductive Agree (out : Bytes) :
    Future Bytes × σ → EStateM.Result Throwable (Transport σ) Bool → Prop
  | replied (reply rest : Bytes) (s : σ) :
      Agree out (.ok reply, s) (.ok true ⟨rest, out ++ reply, s⟩)
  | refused (e : Throwable) (rest : Bytes) (s : σ) :
      Agree out (.error e, s) (.error e ⟨rest, out, s⟩)

/-- `Processor` throws and has written nothing; `Service` tells the client, or its future failed. -/
def Diverge (p : TProtocol) (name : String) (seqid : Int32) (out : Bytes) (e : Throwable)
    (r : Future Bytes × σ) (t : EStateM.Result Throwable (Transport σ) Bool) : Prop :=
  (∃ rest, t = .error e ⟨rest, out, r.2⟩) ∧
    (r.1 = .ok (exceptionMessage p name seqid (Service.internalError name)) ∨
      r.1 = .error nullPointer)

end Blocking

/-! ## One method -/

section Method
variable {σ A V W : Type} {p : TProtocol} {name : String} {readArgs : TReader A}
  {call : A → StateM σ (Answer V)} {result : Option V → Except Throwable Bytes}
  {conv : Answer V → Except Throwable W} {write : W → Bytes} {seqid : Int32}
  {iprot out : Bytes} {s : σ}

/-- The two entries on the same arguments; `process` returns `true` after its own. -/
abbrev processed (p : TProtocol) (name : String) (readArgs : TReader A)
    (call : A → StateM σ (Answer V)) (conv : Answer V → Except Throwable W) (write : W → Bytes)
    (seqid : Int32) (t : Transport σ) : EStateM.Result Throwable (Transport σ) Bool :=
  (do
    Processor.function p name readArgs (fun args => conv <$> call args) write seqid
    return true : Processor.ProcessM σ Bool) t

theorem answerMessage_of_ok {ans : Answer V} {bytes : Bytes}
    (h : ans.await.bind result = .ok bytes) :
    answerMessage p name seqid result ans = .ok (replyMessage p name seqid bytes) := by
  cases ans with
  | throws e => cases h
  | null => cases h
  | future f =>
    change Except.bind f result = _ at h
    rw [answerMessage, Service.respond, h]

theorem answerMessage_of_error {ans : Answer V} {e : Throwable}
    (h : ans.await.bind result = .error e) :
    answerMessage p name seqid result ans
        = .ok (exceptionMessage p name seqid (Service.internalError name)) ∨
      answerMessage p name seqid result ans = .error nullPointer := by
  cases ans with
  | throws e => exact .inl rfl
  | null => exact .inr rfl
  | future f =>
    change Except.bind f result = _ at h
    left
    rw [answerMessage, Service.respond, h]

theorem processed_of_protocol {message : Option String} {rest : Bytes}
    (h : readArgs iprot = .error (.protocol message) rest) :
    Agree out (Service.function p name readArgs call result iprot seqid s)
      (processed p name readArgs call conv write seqid ⟨iprot, out, s⟩) := by
  rw [function_of_protocol h]
  simp only [processed, Processor.function, bind, EStateM.bind, h, Processor.receiving, outcome]
  cases p.readMessageEnd rest with
  | ok u t => exact .replied _ t s
  | error e t => exact .refused e t s

theorem processed_of_error {e : Throwable} {rest : Bytes} (h : readArgs iprot = .error e rest)
    (he : ∀ message, e ≠ .protocol message) :
    Agree out (Service.function p name readArgs call result iprot seqid s)
      (processed p name readArgs call conv write seqid ⟨iprot, out, s⟩) := by
  rw [function_of_error h he]
  simp only [processed, Processor.function, bind, EStateM.bind, h]
  cases e with
  | protocol message => exact absurd rfl (he message)
  | application x => exact .refused _ rest s
  | other name => exact .refused _ rest s
  | endless => exact .refused _ rest s

theorem processed_of_ok {args : A} {rest : Bytes} (h : readArgs iprot = .ok args rest) :
    processed p name readArgs call conv write seqid ⟨iprot, out, s⟩
      = match p.readMessageEnd rest with
        | .error e t => .error e ⟨t, out, s⟩
        | .ok _ t =>
          match conv (call args s).1 with
          | .error e => .error e ⟨t, out, (call args s).2⟩
          | .ok w => .ok true ⟨t, out ++ replyMessage p name seqid (write w), (call args s).2⟩ := by
  simp only [processed, Processor.function, bind, EStateM.bind, h, Processor.receiving]
  cases p.readMessageEnd rest with
  | error e t => rfl
  | ok u t =>
    have hmap : (conv <$> call args) s = (conv (call args s).1, (call args s).2) := rfl
    simp only [Processor.calling, hmap]
    cases conv (call args s).1 <;> rfl

variable (p name readArgs call seqid iprot out s) in
/-- `conv` waits for the answer and `write` writes what `result` would. -/
theorem processed_cases (hconv : ∀ ans : Answer V, ans.await.bind result = (conv ans).map write) :
    match (readToEnd p readArgs).outcome iprot with
    | .error _ => Agree out (Service.function p name readArgs call result iprot seqid s)
        (processed p name readArgs call conv write seqid ⟨iprot, out, s⟩)
    | .ok args =>
      match thrown (conv (call args s).1) with
      | none => Agree out (Service.function p name readArgs call result iprot seqid s)
          (processed p name readArgs call conv write seqid ⟨iprot, out, s⟩)
      | some e => Diverge p name seqid out e
          (Service.function p name readArgs call result iprot seqid s)
          (processed p name readArgs call conv write seqid ⟨iprot, out, s⟩) := by
  cases hread : readArgs iprot with
  | error e rest =>
    rw [outcome_readToEnd_error hread]
    by_cases he : ∃ message, e = .protocol message
    · obtain ⟨message, rfl⟩ := he
      exact processed_of_protocol hread
    · exact processed_of_error hread fun message hm => he ⟨message, hm⟩
  | ok args rest =>
    rw [outcome_readToEnd_ok hread, processed_of_ok hread]
    cases hmsg : p.readMessageEnd rest with
    | error e t =>
      have hend : outcome p.readMessageEnd rest = .error e := by rw [outcome, hmsg]
      rw [hend, function_of_end hread hend]
      exact .refused e t s
    | ok u t =>
      have hend : outcome p.readMessageEnd rest = .ok u := by rw [outcome, hmsg]
      rw [hend, function_of_ok hread hend]
      have hans := hconv (call args s).1
      change match thrown (conv (call args s).1) with
        | none => Agree out (answerMessage p name seqid result (call args s).1, _) _
        | some e =>
          Diverge p name seqid out e (answerMessage p name seqid result (call args s).1, _) _
      cases hc : conv (call args s).1 with
      | ok w =>
        rw [hc] at hans
        rw [answerMessage_of_ok hans]
        exact .replied _ t _
      | error e =>
        rw [hc] at hans
        exact ⟨⟨t, rfl⟩, answerMessage_of_error hans⟩

end Method

/-! ## Every request -/

section Request
variable {σ : Type} {p : TProtocol}

/-- The servers on a request: `r` is what `Service` did and `t` what `Processor` did. -/
def Compared (p : TProtocol) (iface : ServiceIface σ) (request out : Bytes) (s : σ)
    (r : Future Bytes × σ) (t : EStateM.Result Throwable (Transport σ) Bool) : Prop :=
  match failureOn p iface.blocking request s with
  | none => Agree out r t
  | some e => ∃ msg iprot, p.readMessageBegin request = .ok msg iprot ∧
      Diverge p msg.name msg.seqid out e r t

theorem compared_known {A V W : Type} {iface : ServiceIface σ} {request iprot out : Bytes}
    {msg : TMessage} {s : σ} (readArgs : TReader A) (call : A → StateM σ (Answer V))
    (result : Option V → Except Throwable Bytes) (conv : Answer V → Except Throwable W)
    (write : W → Bytes) (toCall : A → Call) (h : p.readMessageBegin request = .ok msg iprot)
    (hservice : Service.functionMap p iface msg.name
      = some (Service.function p msg.name readArgs call result))
    (hprocessor : Processor.processMap p iface.blocking msg.name
      = some (Processor.function p msg.name readArgs (fun args => conv <$> call args) write))
    (hrequested : (requested p).outcome request
      = ((readToEnd p readArgs).outcome iprot).map fun args => (msg, toCall args))
    (hfailure : ∀ args, iface.blocking.failure (toCall args) s = thrown (conv (call args s).1))
    (hconv : ∀ ans : Answer V, ans.await.bind result = (conv ans).map write) :
    Compared p iface request out s (Service.apply p iface request s)
      (Processor.process p iface.blocking ⟨request, out, s⟩) := by
  have hprocess : Processor.process p iface.blocking ⟨request, out, s⟩
      = processed p msg.name readArgs call conv write msg.seqid ⟨iprot, out, s⟩ := by
    simp only [Processor.process, bind, EStateM.bind, Processor.receiving, h, hprocessor]
    rfl
  have hcases := processed_cases p msg.name readArgs call msg.seqid iprot out s hconv
  rw [apply_of_function h hservice, hprocess, Compared, failureOn, hrequested]
  cases hargs : (readToEnd p readArgs).outcome iprot with
  | error e =>
    rw [hargs] at hcases
    exact hcases
  | ok args =>
    rw [hargs] at hcases
    change match iface.blocking.failure (toCall args) s with | none => _ | some e => _
    rw [hfailure]
    cases hc : thrown (conv (call args s).1) with
    | none =>
      simp only [hc] at hcases
      exact hcases
    | some e =>
      simp only [hc] at hcases
      exact ⟨msg, iprot, h, hcases⟩

theorem compared_unknown {iface : ServiceIface σ} {request iprot out : Bytes} {msg : TMessage}
    {s : σ} (h : p.readMessageBegin request = .ok msg iprot)
    (hname : msg.name ≠ "hi" ∧ msg.name ≠ "add" ∧ msg.name ≠ "blocking_call") :
    Compared p iface request out s (Service.apply p iface request s)
      (Processor.process p iface.blocking ⟨request, out, s⟩) := by
  have hservice : Service.functionMap p iface msg.name = none := by
    rw [Service.functionMap, if_neg hname.1, if_neg hname.2.1, if_neg hname.2.2]
  have hprocessor : Processor.processMap p iface.blocking msg.name = none := by
    rw [Processor.processMap, if_neg hname.1, if_neg hname.2.1, if_neg hname.2.2]
  have hrequested : (requested p).outcome request
      = .error (.application (Processor.invalidName msg.name)) := by
    rw [outcome, requested, bind_ok h, if_neg hname.1, if_neg hname.2.1, if_neg hname.2.2]
    rfl
  rw [Compared, failureOn, hrequested, apply_of_unknown h hservice, outcome]
  simp only [Processor.process, bind, EStateM.bind, Processor.receiving, h, hprocessor]
  cases p.skip TType.struct iprot with
  | error e rest => exact .refused e rest s
  | ok u rest =>
    dsimp only
    cases p.readMessageEnd rest with
    | error e t => exact .refused e t s
    | ok u t => exact .replied _ t s

/-- On any bytes the two servers send the same reply or throw the same exception, and call the
interface alike, unless the call they make fails: then `Processor` throws what the call threw and
has written nothing, where `Service` answers with an internal error or its future fails. -/
theorem processor_service (p : TProtocol) (iface : ServiceIface σ) (request out : Bytes) (s : σ) :
    Compared p iface request out s (Service.apply p iface request s)
      (Processor.process p iface.blocking ⟨request, out, s⟩) := by
  cases h : p.readMessageBegin request with
  | error e rest =>
    have hrequested : (requested p).outcome request = .error e := by
      rw [outcome, requested, bind_error h]
    rw [Compared, failureOn, hrequested, Service.apply, h]
    simp only [Processor.process, bind, EStateM.bind, Processor.receiving, h]
    exact .refused e rest s
  | ok msg iprot =>
    by_cases hhi : msg.name = "hi"
    · refine compared_known (HiArgs.read p {}) (fun _ => iface.hi)
        (fun success => .ok (HiResult.write p (HiResult.setSuccessIsSet ⟨success⟩ true)))
        Answer.await (fun success => HiResult.write p ⟨success⟩) (fun _ => .hi) h ?_ ?_
        (outcome_requested h ?_) (fun _ => rfl) fun ans => ?_
      · rw [Service.functionMap, if_pos hhi, hhi]
        rfl
      · rw [Processor.processMap, if_pos hhi, hhi]
        rfl
      · rw [if_pos hhi]
      · cases ans.await <;> rfl
    · by_cases hadd : msg.name = "add"
      · refine compared_known (AddArgs.read p {}) (fun args => iface.add args.a args.b)
          (Service.unbox (AddResult.write p)) (fun ans => ans.await.bind unboxed)
          (fun success => AddResult.write p (I32Result.setSuccessIsSet { success } true))
          (fun args => .add args.a args.b) h ?_ ?_ (outcome_requested h ?_) (fun _ => rfl)
          fun ans => ?_
        · rw [Service.functionMap, if_neg hhi, if_pos hadd, hadd]
          rfl
        · rw [Processor.processMap, if_neg hhi, if_pos hadd, hadd]
          rfl
        · rw [if_neg hhi, if_pos hadd]
        · rcases ans.await with e | _ | n <;> rfl
      · by_cases hblock : msg.name = "blocking_call"
        · refine compared_known (BlockingCallArgs.read p {}) (fun _ => iface.blockingCall)
            (Service.unbox (BlockingCallResult.write p)) (fun ans => ans.await.bind unboxed)
            (fun success => BlockingCallResult.write p (I32Result.setSuccessIsSet { success } true))
            (fun _ => .blockingCall) h ?_ ?_ (outcome_requested h ?_) (fun _ => rfl) fun ans => ?_
          · rw [Service.functionMap, if_neg hhi, if_neg hadd, if_pos hblock, hblock]
            rfl
          · rw [Processor.processMap, if_neg hhi, if_neg hadd, if_pos hblock, hblock]
            rfl
          · rw [if_neg hhi, if_neg hadd, if_pos hblock]
          · rcases ans.await with e | _ | n <;> rfl
        · exact compared_unknown h ⟨hhi, hadd, hblock⟩

end Request
end SbtExample.Haver
