import SbtExample.Haver.Structs

/-! # The two sides of the `Haver` service

The client side of `Haver.java` (`Client` over a connection, `ServiceToClient` over a Finagle
service), its server side (`Processor` over a connection, `Service` over byte arrays) and the
`HaverServer` behind it. The implementation of the interface keeps a state `σ`; a `Future` stands
for what it is resolved to.
-/
set_option autoImplicit false
set_option maxHeartbeats 250000

namespace SbtExample.Haver
open Thrift Reader

abbrev Future (α : Type) : Type := Except Throwable α

def nullPointer : Throwable := .other "java.lang.NullPointerException"

/-! ## Messages -/

section Messages
variable (p : TProtocol)

def callMessage (name : String) (seqid : Int32) (args : Bytes) : Bytes :=
  p.writeMessageBegin ⟨name, TMessageType.call, seqid⟩ ++ args ++ p.writeMessageEnd

def replyMessage (name : String) (seqid : Int32) (result : Bytes) : Bytes :=
  p.writeMessageBegin ⟨name, TMessageType.reply, seqid⟩ ++ result ++ p.writeMessageEnd

def exceptionMessage (name : String) (seqid : Int32) (x : TApplicationException) : Bytes :=
  p.writeMessageBegin ⟨name, TMessageType.exception, seqid⟩ ++ p.writeException x
    ++ p.writeMessageEnd

def hiCall (seqid : Int32) : Bytes := callMessage p "hi" seqid (HiArgs.write p {})

def addCall (seqid a b : Int32) : Bytes :=
  callMessage p "add" seqid (((({} : AddArgs).setA a).setB b).write p)

def blockingCallCall (seqid : Int32) : Bytes :=
  callMessage p "blocking_call" seqid (BlockingCallArgs.write p {})

/-! ## `Client` -/

/-- `recv_*`: `read` is the one of the result struct and `success` its member, when it is set. The
sequence number is looked at after the type. -/
def recv {R α : Type} (name : String) (read : TReader R) (success : R → Option α)
    (seqid_ : Int32) : TReader α := do
  let msg ← p.readMessageBegin
  if msg.type = TMessageType.exception then do
    let x ← p.readException
    p.readMessageEnd
    throw (.application x)
  else if msg.seqid ≠ seqid_ then
    throw (.application
      ⟨TApplicationException.badSequenceId, some (name ++ " failed: out of sequence response")⟩)
  else do
    let result ← read
    p.readMessageEnd
    match success result with
    | some value => return value
    | none => throw (.application
        ⟨TApplicationException.missingResult, some (name ++ " failed: unknown result")⟩)

def recvHi (seqid_ : Int32) : TReader String :=
  recv p "hi" (HiResult.read p {}) HiResult.success seqid_

def recvAdd (seqid_ : Int32) : TReader Int32 :=
  recv p "add" (AddResult.read p {}) I32Result.success? seqid_

def recvBlockingCall (seqid_ : Int32) : TReader Int32 :=
  recv p "blocking_call" (BlockingCallResult.read p {}) I32Result.success? seqid_

end Messages

/-- The streams of the connection and the number of the last call. -/
structure Client where
  iprot : Bytes := []
  oprot : Bytes := []
  seqid : Int32 := 0
  deriving DecidableEq

namespace Client
variable (p : TProtocol)

def send (this : Client) (message : Int32 → Bytes) : Client :=
  { this with seqid := this.seqid + 1, oprot := this.oprot ++ message (this.seqid + 1) }

def sendHi (this : Client) : Client := this.send (hiCall p)
def sendAdd (this : Client) (a b : Int32) : Client := this.send fun seqid => addCall p seqid a b
def sendBlockingCall (this : Client) : Client := this.send (blockingCallCall p)

def receive {α : Type} (this : Client) (r : TReader α) : Except Throwable α × Client :=
  match r this.iprot with
  | .ok a rest => (.ok a, { this with iprot := rest })
  | .error e rest => (.error e, { this with iprot := rest })

def recvHi (this : Client) : Except Throwable String × Client :=
  this.receive (Haver.recvHi p this.seqid)
def recvAdd (this : Client) : Except Throwable Int32 × Client :=
  this.receive (Haver.recvAdd p this.seqid)
def recvBlockingCall (this : Client) : Except Throwable Int32 × Client :=
  this.receive (Haver.recvBlockingCall p this.seqid)

end Client

/-! ## `ServiceToClient` -/

namespace ServiceToClient
variable {σ : Type} (p : TProtocol) (service : Bytes → StateM σ (Future Bytes))

/-- Each call is numbered 0 and read back by a new `Client`, whose number is 0 as well. -/
def call {α : Type} (request : Bytes) (recv : TReader α) : StateM σ (Future α) := do
  let done ← service request
  return done.bind recv.outcome

def hi : StateM σ (Future String) := call service (hiCall p 0) (recvHi p 0)
def add (a b : Int32) : StateM σ (Future Int32) := call service (addCall p 0 a b) (recvAdd p 0)
def blockingCall : StateM σ (Future Int32) :=
  call service (blockingCallCall p 0) (recvBlockingCall p 0)

end ServiceToClient

/-! ## `Processor` -/

/-- The blocking interface; `hi` may return `null`. -/
structure Iface (σ : Type) where
  hi : StateM σ (Except Throwable (Option String))
  add : Int32 → Int32 → StateM σ (Except Throwable Int32)
  blockingCall : StateM σ (Except Throwable Int32)

/-- The streams that `process` is given, and the object behind the interface. -/
structure Transport (σ : Type) where
  iprot : Bytes
  oprot : Bytes
  iface : σ

namespace Processor
variable {σ : Type}

abbrev ProcessM (σ α : Type) : Type := EStateM Throwable (Transport σ) α

def receiving {α : Type} (r : TReader α) : ProcessM σ α := fun s =>
  match r s.iprot with
  | .ok a rest => .ok a { s with iprot := rest }
  | .error e rest => .error e { s with iprot := rest }

def sending (bytes : Bytes) : ProcessM σ Unit := fun s =>
  .ok () { s with oprot := s.oprot ++ bytes }

def calling {α : Type} (call : StateM σ (Except Throwable α)) : ProcessM σ α := fun s =>
  match call s.iface with
  | (.ok a, iface) => .ok a { s with iface := iface }
  | (.error e, iface) => .error e { s with iface := iface }

section
variable (p : TProtocol)

/-- A `ProcessFunction`: only a `TProtocolException` of `args.read` is answered, everything else
that is thrown leaves `process`. -/
def function {A V : Type} (name : String) (readArgs : TReader A)
    (call : A → StateM σ (Except Throwable V)) (result : V → Bytes) (seqid : Int32) :
    ProcessM σ Unit := fun s =>
  match readArgs s.iprot with
  | .error (.protocol message) rest =>
    (do
      receiving p.readMessageEnd
      sending (exceptionMessage p name seqid ⟨TApplicationException.protocolError, message⟩))
      { s with iprot := rest }
  | .error e rest => .error e { s with iprot := rest }
  | .ok args rest =>
    (do
      receiving p.readMessageEnd
      let value ← calling (call args)
      sending (replyMessage p name seqid (result value)))
      { s with iprot := rest }

def hi (iface : Iface σ) : Int32 → ProcessM σ Unit :=
  function p "hi" (HiArgs.read p {}) (fun _ => iface.hi) fun success => HiResult.write p ⟨success⟩

def add (iface : Iface σ) : Int32 → ProcessM σ Unit :=
  function p "add" (AddArgs.read p {}) (fun args => iface.add args.a args.b) fun success =>
    AddResult.write p (I32Result.setSuccessIsSet { success } true)

def blockingCall (iface : Iface σ) : Int32 → ProcessM σ Unit :=
  function p "blocking_call" (BlockingCallArgs.read p {}) (fun _ => iface.blockingCall)
    fun success => BlockingCallResult.write p (I32Result.setSuccessIsSet { success } true)

def invalidName (name : String) : TApplicationException :=
  ⟨TApplicationException.unknownMethod, some ("Invalid method name: '" ++ name ++ "'")⟩

def processMap (iface : Iface σ) (name : String) : Option (Int32 → ProcessM σ Unit) :=
  if name = "hi" then some (hi p iface)
  else if name = "add" then some (add p iface)
  else if name = "blocking_call" then some (blockingCall p iface)
  else none

def process (iface : Iface σ) : ProcessM σ Bool := do
  let msg ← receiving p.readMessageBegin
  match processMap p iface msg.name with
  | some fn =>
    fn msg.seqid
    return true
  | none =>
    receiving (p.skip TType.struct)
    receiving p.readMessageEnd
    sending (exceptionMessage p msg.name msg.seqid (invalidName msg.name))
    return true

end
end Processor

/-! ## `Service` -/

/-- What a call on the asynchronous interface comes to. A resolved value may be `null`. -/
inductive Answer (α : Type)
  | throws (e : Throwable)
  | null
  | future (f : Future (Option α))

structure ServiceIface (σ : Type) where
  hi : StateM σ (Answer String)
  add : Int32 → Int32 → StateM σ (Answer Int32)
  blockingCall : StateM σ (Answer Int32)

namespace Service
variable {σ : Type} (p : TProtocol)

def internalError (name : String) : TApplicationException :=
  ⟨TApplicationException.internalError, some ("Internal error processing " ++ name)⟩

/-- `flatMap` with the reply, then `rescue` with an exception message. -/
def respond {V : Type} (name : String) (seqid : Int32) (result : Option V → Except Throwable Bytes)
    (future : Future (Option V)) : Future Bytes :=
  match future.bind result with
  | .ok bytes => .ok (replyMessage p name seqid bytes)
  | .error _ => .ok (exceptionMessage p name seqid (internalError name))

/-- The entries of `functionMap`. A `null` future is dereferenced outside of `rescue`. -/
def function {A V : Type} (name : String) (readArgs : TReader A) (call : A → StateM σ (Answer V))
    (result : Option V → Except Throwable Bytes) (iprot : Bytes) (seqid : Int32) :
    StateM σ (Future Bytes) :=
  match readArgs iprot with
  | .error (.protocol message) rest =>
    return (outcome p.readMessageEnd rest).map fun _ =>
      exceptionMessage p name seqid ⟨TApplicationException.protocolError, message⟩
  | .error e _ => return .error e
  | .ok args rest =>
    match outcome p.readMessageEnd rest with
    | .error e => return .error e
    | .ok _ => do
      match ← call args with
      | .throws e => return respond p name seqid result (.error e)
      | .null => return .error nullPointer
      | .future f => return respond p name seqid result f

/-- `result.success = value` for a boxed value. -/
def unbox (write : I32Result → Bytes) : Option Int32 → Except Throwable Bytes
  | some success => .ok (write (I32Result.setSuccessIsSet { success } true))
  | none => .error nullPointer

def hi (iface : ServiceIface σ) : Bytes → Int32 → StateM σ (Future Bytes) :=
  function p "hi" (HiArgs.read p {}) (fun _ => iface.hi) fun success =>
    .ok (HiResult.write p (HiResult.setSuccessIsSet ⟨success⟩ true))

def add (iface : ServiceIface σ) : Bytes → Int32 → StateM σ (Future Bytes) :=
  function p "add" (AddArgs.read p {}) (fun args => iface.add args.a args.b)
    (unbox (AddResult.write p))

def blockingCall (iface : ServiceIface σ) : Bytes → Int32 → StateM σ (Future Bytes) :=
  function p "blocking_call" (BlockingCallArgs.read p {}) (fun _ => iface.blockingCall)
    (unbox (BlockingCallResult.write p))

def functionMap (iface : ServiceIface σ) (name : String) :
    Option (Bytes → Int32 → StateM σ (Future Bytes)) :=
  if name = "hi" then some (hi p iface)
  else if name = "add" then some (add p iface)
  else if name = "blocking_call" then some (blockingCall p iface)
  else none

def apply (iface : ServiceIface σ) (request : Bytes) : StateM σ (Future Bytes) :=
  match p.readMessageBegin request with
  | .error e _ => return .error e
  | .ok msg iprot =>
    match functionMap p iface msg.name with
    | some fn => fn iprot msg.seqid
    | none =>
      match (do p.skip TType.struct; p.readMessageEnd : TReader Unit) iprot with
      | .error e _ => return .error e
      | .ok _ _ =>
        return .ok (exceptionMessage p msg.name msg.seqid (Processor.invalidName msg.name))

end Service

/-! ## `HaverServer` -/

/-- The clock, the random numbers and the work on the thread pool are its surroundings. -/
structure Surroundings (σ : Type) where
  currentTimeMillis : StateM σ Int64
  nextInt : Int32 → StateM σ Int32
  blockingWork : Int32 → StateM σ (Future Int32)

def HaverServer {σ : Type} (env : Surroundings σ) : ServiceIface σ where
  hi := do
    let now ← env.currentTimeMillis
    return .future (.ok (some
      ("Hello, Stonehenge! At the beep, the time will be " ++ toString now.toInt)))
  add a b := return .future (.ok (some (a + b)))
  blockingCall := do
    let delay ← env.nextInt 10
    let answer ← env.blockingWork delay
    return .future (answer.map some)

end SbtExample.Haver
