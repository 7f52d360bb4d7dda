import SbtExample.Foundations.Transition
import SbtExample.Haver.Servers

/-! # One connection

A `Client` and a `Processor` at the two ends of a connection that keeps the order of the bytes:
`send_*`, `process` and `recv_*` in any interleaving, so that calls may be pipelined. Then what the
processor makes of one call at the front of its stream, and the client of one reply.
-/
set_option autoImplicit false
set_option maxHeartbeats 250000

namespace SbtExample.Haver
open Thrift Reader Transition

inductive Method
  | hi
  | add
  | blockingCall
  deriving DecidableEq

def Method.name : Method → String
  | .hi => "hi"
  | .add => "add"
  | .blockingCall => "blocking_call"

def Call.method : Call → Method
  | .hi => .hi
  | .add _ _ => .add
  | .blockingCall => .blockingCall

namespace Client
variable (p : TProtocol)

def sendCall (this : Client) : Call → Client
  | .hi => this.sendHi p
  | .add a b => this.sendAdd p a b
  | .blockingCall => this.sendBlockingCall p

def recvMethod (this : Client) : Method → Except Throwable Value × Client
  | .hi => (this.recvHi p).map (Except.map .text) id
  | .add => (this.recvAdd p).map (Except.map .int) id
  | .blockingCall => (this.recvBlockingCall p).map (Except.map .int) id

end Client

/-- What the client writes is what the processor reads, and the other way round. Once an exception
has left `process` the connection is no longer served. -/
structure Connection (σ : Type) where
  seqid : Int32 := 0
  requests : Bytes := []
  replies : Bytes := []
  serving : Bool := true
  iface : σ

namespace Connection
variable {σ : Type}

def client (s : Connection σ) : Client := ⟨s.replies, s.requests, s.seqid⟩

def server (s : Connection σ) : Transport σ := ⟨s.requests, s.replies, s.iface⟩

def setClient (s : Connection σ) (c : Client) : Connection σ :=
  { s with replies := c.iprot, requests := c.oprot, seqid := c.seqid }

def setServer (s : Connection σ) (t : Transport σ) : Connection σ :=
  { s with requests := t.iprot, replies := t.oprot, iface := t.iface }

end Connection

/-- A `recv_*` comes with its result. -/
inductive Event
  | send (c : Call)
  | serve
  | recv (m : Method) (r : Except Throwable Value)

namespace Connection
variable {σ : Type} (p : TProtocol) (iface : Iface σ)

/-- `process` and `recv_*` wait while nothing has arrived. -/
def step (s : Connection σ) : Event → Option (Connection σ)
  | .send c => some (s.setClient (s.client.sendCall p c))
  | .serve =>
    if s.serving = true ∧ s.requests ≠ [] then
      match Processor.process p iface s.server with
      | .ok _ t => some (s.setServer t)
      | .error _ t => some { s.setServer t with serving := false }
    else none
  | .recv m r =>
    if s.replies ≠ [] ∧ (s.client.recvMethod p m).1 = r then
      some (s.setClient (s.client.recvMethod p m).2)
    else none

end Connection

/-! ## What the interface answers -/

namespace Iface
variable {σ : Type} (iface : Iface σ)

def perform : Call → StateM σ (Except Throwable (Option Value))
  | .hi => Except.map (Option.map .text) <$> iface.hi
  | .add a b => Except.map (fun n => some (.int n)) <$> iface.add a b
  | .blockingCall => Except.map (fun n => some (.int n)) <$> iface.blockingCall

/-- The answers to the calls, one after the other. -/
def answers (s : σ) : List Call → List (Except Throwable (Option Value))
  | [] => []
  | c :: cs => (iface.perform c s).1 :: answers (iface.perform c s).2 cs

def afterAll (s : σ) (cs : List Call) : σ := cs.foldl (fun s c => (iface.perform c s).2) s

theorem afterAll_concat (s : σ) (cs : List Call) (c : Call) :
    iface.afterAll s (cs ++ [c]) = (iface.perform c (iface.afterAll s cs)).2 := by
  rw [afterAll, List.foldl_append]
  rfl

/-- A call does not change the answers to the calls before it. -/
theorem answers_append (s : σ) (cs ds : List Call) :
    iface.answers s (cs ++ ds)
      = iface.answers s cs ++ iface.answers (iface.afterAll s cs) ds := by
  induction cs generalizing s with
  | nil => rfl
  | cons c cs ih =>
    rw [List.cons_append, answers, ih, answers]
    rfl

end Iface

/-! ## What is in the streams -/

section Messages
variable {σ : Type} (p : TProtocol)

def callOf (seqid : Int32) : Call → Bytes
  | .hi => hiCall p seqid
  | .add a b => addCall p seqid a b
  | .blockingCall => blockingCallCall p seqid

def resultFields : Option Value → List WireField
  | none => []
  | some (.text t) => [⟨"success", 0, .string t⟩]
  | some (.int n) => [⟨"success", 0, .i32 n⟩]

def replyOf (seqid : Int32) (m : Method) (v : Option Value) : Bytes :=
  replyMessage p m.name seqid (writeStruct p (m.name ++ "_result") (resultFields v))

/-- The calls after the first `n`. -/
def requestsFrom (n : ℕ) : List Call → Bytes
  | [] => []
  | c :: cs => callOf p (.ofNat (n + 1)) c ++ requestsFrom (n + 1) cs

def repliesFrom (n : ℕ) : List (Call × Option Value) → Bytes
  | [] => []
  | (c, v) :: xs => replyOf p (.ofNat (n + 1)) c.method v ++ repliesFrom (n + 1) xs

theorem requestsFrom_concat (n : ℕ) (cs : List Call) (c : Call) :
    requestsFrom p n (cs ++ [c])
      = requestsFrom p n cs ++ callOf p (.ofNat (n + cs.length + 1)) c := by
  induction cs generalizing n with
  | nil => simp [requestsFrom]
  | cons d cs ih =>
    rw [List.cons_append, requestsFrom, ih, requestsFrom, List.append_assoc, List.length_cons,
      Nat.add_right_comm n 1]
    rfl

theorem repliesFrom_concat (n : ℕ) (xs : List (Call × Option Value)) (c : Call)
    (v : Option Value) :
    repliesFrom p n (xs ++ [(c, v)])
      = repliesFrom p n xs ++ replyOf p (.ofNat (n + xs.length + 1)) c.method v := by
  induction xs generalizing n with
  | nil => simp [repliesFrom]
  | cons x xs ih =>
    rw [List.cons_append, repliesFrom, ih, repliesFrom, List.append_assoc, List.length_cons,
      Nat.add_right_comm n 1]
    rfl

theorem sendCall_eq (this : Client) (c : Call) :
    this.sendCall p c = this.send fun seqid => callOf p seqid c := by
  cases c <;> rfl

end Messages

/-! ## The processor on a call -/

section Process
variable {σ : Type} {p : TProtocol} {iface : Iface σ}

theorem fits_name (m : Method) : Fits m.name := by
  cases m <;> decide +kernel

theorem process_known {A V : Type} {name : String} {readArgs : TReader A}
    {call : A → StateM σ (Except Throwable V)} {result : V → Bytes} {bytes : Bytes} {args : A}
    (codec : p.Codec) (fits : Fits name)
    (hfn : Processor.processMap p iface name
      = some (Processor.function p name readArgs call result))
    (hread : Parses readArgs bytes args) (seqid : Int32) (rest out : Bytes) (s : σ) :
    Processor.process p iface ⟨callMessage p name seqid bytes ++ rest, out, s⟩
      = match call args s with
        | (.ok v, s') => .ok true ⟨rest, out ++ replyMessage p name seqid (result v), s'⟩
        | (.error e, s') => .error e ⟨rest, out, s'⟩ := by
  have hmsg := codec.message ⟨name, TMessageType.call, seqid⟩ fits (by decide : (1 : UInt8) < 128)
    (bytes ++ (p.writeMessageEnd ++ rest))
  have hargs := hread (p.writeMessageEnd ++ rest)
  have hend := codec.messageEnd rest
  simp only [Processor.process, callMessage, List.append_assoc, bind, EStateM.bind,
    Processor.receiving, hmsg, hfn, Processor.function, hargs, hend, Processor.calling]
  cases call args s with
  | mk r s' => cases r <;> rfl

/-- `process` takes one call off the stream and carries it out; it appends the reply, or throws what
the interface threw. -/
theorem process_call (codec : p.Codec) (seqid : Int32) (c : Call) (rest out : Bytes) (s : σ) :
    Processor.process p iface ⟨callOf p seqid c ++ rest, out, s⟩
      = match iface.perform c s with
        | (.ok v, s') => .ok true ⟨rest, out ++ replyOf p seqid c.method v, s'⟩
        | (.error e, s') => .error e ⟨rest, out, s'⟩ := by
  cases c with
  | hi =>
    refine (process_known codec (fits_name .hi) rfl (NoArgs.parses_writeAs codec "hi_args" {})
      seqid rest out s).trans ?_
    have hperform : iface.perform .hi s
        = ((iface.hi s).1.map (Option.map .text), (iface.hi s).2) := rfl
    rw [hperform]
    rcases iface.hi s with ⟨e | v, s'⟩
    · rfl
    · have hbytes : HiResult.write p ⟨v⟩
          = writeStruct p "hi_result" (resultFields (v.map .text)) := by
        rw [HiResult.write_eq]
        cases v <;> rfl
      simp only [hbytes]
      rfl
  | add a b =>
    refine (process_known codec (fits_name .add) rfl (AddArgs.parses_write codec _)
      seqid rest out s).trans ?_
    have hperform : iface.perform (.add a b) s
        = ((iface.add a b s).1.map fun n => some (.int n), (iface.add a b s).2) := rfl
    rw [hperform]
    simp only [AddArgs.setA, AddArgs.setB]
    rcases iface.add a b s with ⟨e | n, s'⟩
    · rfl
    · simp only [AddResult.write, I32Result.writeAs_eq]
      rfl
  | blockingCall =>
    refine (process_known codec (fits_name .blockingCall) rfl
      (NoArgs.parses_writeAs codec "blocking_call_args" {}) seqid rest out s).trans ?_
    have hperform : iface.perform .blockingCall s
        = ((iface.blockingCall s).1.map fun n => some (.int n), (iface.blockingCall s).2) := rfl
    rw [hperform]
    rcases iface.blockingCall s with ⟨e | n, s'⟩
    · rfl
    · simp only [BlockingCallResult.write, I32Result.writeAs_eq]
      rfl

end Process

/-! ## The client on a reply -/

section Receive
variable {p : TProtocol}

/-- `recv_*` makes sense of the reply to its own method; the results of the two methods that answer
with a number are alike, and nothing looks at the name in the header. -/
def seen : Method → Option Value → Except Throwable Value
  | .hi, some (.text t) => .ok (.text t)
  | .add, some (.int n) => .ok (.int n)
  | .blockingCall, some (.int n) => .ok (.int n)
  | m, _ => .error (.application (missingResult m.name))

theorem receive_recv {R α : Type} {name name' : String} {read : TReader R} {success : R → Option α}
    {bytes : Bytes} {result : R} (codec : p.Codec) (fits : Fits name')
    (hread : Parses read bytes result) (seqid : Int32) (rest oprot : Bytes) :
    (⟨replyMessage p name' seqid bytes ++ rest, oprot, seqid⟩ : Client).receive
        (recv p name read success seqid)
      = ((success result).elim (.error (.application (missingResult name))) .ok,
          ⟨rest, oprot, seqid⟩) := by
  cases hsuccess : success result with
  | some v =>
    rw [Client.receive, parses_recv codec fits hread hsuccess rest]
    rfl
  | none =>
    rw [Client.receive, rejects_recv_missing codec fits hread hsuccess rest]
    rfl

def Value.Fits : Value → Prop
  | .text t => Thrift.Fits t
  | .int _ => True

theorem valid_resultFields {v : Option Value} (h : ∀ x, v = some x → x.Fits) :
    ∀ f ∈ resultFields v, f.value.Valid p := by
  intro f hf
  match v with
  | none => cases hf
  | some (.text t) =>
    cases List.mem_singleton.mp hf
    exact h _ rfl
  | some (.int n) =>
    cases List.mem_singleton.mp hf
    trivial

theorem recvMethod_reply (codec : p.Codec) (m m' : Method) {v : Option Value}
    (fits : ∀ x, v = some x → x.Fits) (seqid : Int32) (rest oprot : Bytes) :
    (⟨replyOf p seqid m' v ++ rest, oprot, seqid⟩ : Client).recvMethod p m
      = (seen m v, ⟨rest, oprot, seqid⟩) := by
  have hi := HiResult.parses_read codec (m'.name ++ "_result") (resultFields v)
    (valid_resultFields fits) {}
  have hint := I32Result.parses_read codec (m'.name ++ "_result") (resultFields v)
    (valid_resultFields fits) {}
  cases m with
  | hi =>
    rw [Client.recvMethod, Client.recvHi, recvHi, replyOf, receive_recv codec (fits_name m') hi]
    rcases v with _ | ⟨t | n⟩ <;> rfl
  | add =>
    have hadd : Parses (AddResult.read p {}) _ _ := hint
    rw [Client.recvMethod, Client.recvAdd, recvAdd, replyOf,
      receive_recv codec (fits_name m') hadd]
    rcases v with _ | ⟨t | n⟩ <;> rfl
  | blockingCall =>
    have hblocking : Parses (BlockingCallResult.read p {}) _ _ := hint
    rw [Client.recvMethod, Client.recvBlockingCall, recvBlockingCall, replyOf,
      receive_recv codec (fits_name m') hblocking]
    rcases v with _ | ⟨t | n⟩ <;> rfl

theorem receive_sequence {R α : Type} {name name' : String} {read : TReader R}
    {success : R → Option α} {bytes : Bytes} (codec : p.Codec) (fits : Fits name')
    {seqid seqid' : Int32} (h : seqid' ≠ seqid) (oprot : Bytes) :
    ((⟨p.writeMessageBegin ⟨name', TMessageType.reply, seqid'⟩ ++ bytes, oprot, seqid⟩ :
        Client).receive (recv p name read success seqid))
      = (.error (.application (outOfSequence name)), ⟨bytes, oprot, seqid⟩) := by
  rw [Client.receive, rejects_recv_sequence codec fits h bytes]

/-- Only the header of the reply is taken off the stream. -/
theorem recvMethod_sequence (codec : p.Codec) (m m' : Method) (v : Option Value)
    {seqid seqid' : Int32} (h : seqid' ≠ seqid) (rest oprot : Bytes) :
    (⟨replyOf p seqid' m' v ++ rest, oprot, seqid⟩ : Client).recvMethod p m
      = (.error (.application (outOfSequence m.name)),
          ⟨writeStruct p (m'.name ++ "_result") (resultFields v) ++ (p.writeMessageEnd ++ rest),
            oprot, seqid⟩) := by
  rw [replyOf, replyMessage, List.append_assoc, List.append_assoc]
  cases m with
  | hi =>
    rw [Client.recvMethod, Client.recvHi, recvHi, receive_sequence codec (fits_name m') h]
    rfl
  | add =>
    rw [Client.recvMethod, Client.recvAdd, recvAdd, receive_sequence codec (fits_name m') h]
    rfl
  | blockingCall =>
    rw [Client.recvMethod, Client.recvBlockingCall, recvBlockingCall,
      receive_sequence codec (fits_name m') h]
    rfl

end Receive

end SbtExample.Haver
