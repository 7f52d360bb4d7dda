import SbtExample.Haver.Program
import SbtExample.Haver.Wire

/-! # Remote calls and direct calls

A client program that goes through `ServiceToClient` and `Service` sees what it would see on the
interface itself, with the failures translated as `observed` says, and the interface sees the same
calls. The argument follows a message through the two sides: what `Service` makes of a request, and
what `recv_*` makes of a reply.
-/
set_option autoImplicit false
set_option maxHeartbeats 250000

namespace SbtExample.Haver
open Thrift Reader

/-! ## What `recv_*` makes of a message -/

section Recv
variable {p : TProtocol} {R α : Type} {name name' : String} {read : TReader R}
  {success : R → Option α} {seqid seqid' : Int32} {bytes : Bytes} {result : R}

def missingResult (name : String) : TApplicationException :=
  ⟨TApplicationException.missingResult, some (name ++ " failed: unknown result")⟩

def outOfSequence (name : String) : TApplicationException :=
  ⟨TApplicationException.badSequenceId, some (name ++ " failed: out of sequence response")⟩

theorem reply_ne_exception : TMessageType.reply ≠ TMessageType.exception := by decide

theorem parses_replyBegin (codec : p.Codec) (fits : Fits name') (seqid : Int32) :
    Parses p.readMessageBegin (p.writeMessageBegin ⟨name', TMessageType.reply, seqid⟩)
      ⟨name', TMessageType.reply, seqid⟩ :=
  codec.message _ fits (by decide : TMessageType.reply < 128)

theorem parses_exceptionBegin (codec : p.Codec) (fits : Fits name') (seqid : Int32) :
    Parses p.readMessageBegin (p.writeMessageBegin ⟨name', TMessageType.exception, seqid⟩)
      ⟨name', TMessageType.exception, seqid⟩ :=
  codec.message _ fits (by decide : TMessageType.exception < 128)

/-- The result of a reply, when its member is set. -/
theorem parses_recv (codec : p.Codec) (fits : Fits name') (hread : Parses read bytes result) {v : α}
    (hv : success result = some v) :
    Parses (recv p name read success seqid) (replyMessage p name' seqid bytes) v := by
  rw [recv, replyMessage, List.append_assoc]
  refine (parses_replyBegin codec fits seqid).bind ?_
  rw [if_neg reply_ne_exception, if_neg (not_not_intro rfl)]
  refine hread.bind (codec.messageEnd.bind_pure ?_)
  rw [hv]
  exact .pure v

theorem rejects_recv_missing (codec : p.Codec) (fits : Fits name')
    (hread : Parses read bytes result) (hv : success result = none) :
    Rejects (recv p name read success seqid) (replyMessage p name' seqid bytes)
      (.application (missingResult name)) := by
  rw [recv, replyMessage, List.append_assoc]
  refine (parses_replyBegin codec fits seqid).bind_rejects ?_
  rw [if_neg reply_ne_exception, if_neg (not_not_intro rfl)]
  refine hread.bind_rejects (codec.messageEnd.bind_throw ?_)
  rw [hv]
  exact .throw _

/-- An exception is thrown whatever its sequence number is. -/
theorem rejects_recv_exception (lawful : p.Lawful) (fits : Fits name') {x : TApplicationException}
    (hx : x.Fits) :
    Rejects (recv p name read success seqid) (exceptionMessage p name' seqid' x)
      (.application x) := by
  rw [recv, exceptionMessage, List.append_assoc]
  refine (parses_exceptionBegin lawful.toCodec fits seqid').bind_rejects ?_
  rw [if_pos rfl]
  exact (lawful.exception x hx).bind_rejects (lawful.messageEnd.bind_throw (.throw _))

/-- A reply with another sequence number is left unread, its header apart. -/
theorem rejects_recv_sequence (codec : p.Codec) (fits : Fits name') (h : seqid' ≠ seqid) :
    Rejects (recv p name read success seqid)
      (p.writeMessageBegin ⟨name', TMessageType.reply, seqid'⟩)
      (.application (outOfSequence name)) := by
  rw [recv]
  refine (parses_replyBegin codec fits seqid').bind_throw ?_
  rw [if_neg reply_ne_exception, if_pos h]
  exact .throw _

end Recv

/-! ## What `Service` makes of a request -/

section Apply
variable {σ A V : Type} {p : TProtocol} {name : String} {readArgs : TReader A}
  {call : A → StateM σ (Answer V)} {result : Option V → Except Throwable Bytes} {bytes : Bytes}
  {args : A}

/-- The reply to what the interface came to. -/
def answerMessage (p : TProtocol) (name : String) (seqid : Int32)
    (result : Option V → Except Throwable Bytes) : Answer V → Future Bytes
  | .throws e => Service.respond p name seqid result (.error e)
  | .null => .error nullPointer
  | .future f => Service.respond p name seqid result f

theorem function_of_ok {iprot rest : Bytes} {seqid : Int32} {u : Unit}
    (h : readArgs iprot = .ok args rest) (hend : outcome p.readMessageEnd rest = .ok u) :
    Service.function p name readArgs call result iprot seqid
      = answerMessage p name seqid result <$> call args := by
  rw [Service.function, h]
  simp only [hend]
  rw [map_eq_pure_bind]
  congr 1
  funext ans
  cases ans <;> rfl

theorem function_eq (hread : Parses readArgs bytes args) (codec : p.Codec) (seqid : Int32) :
    Service.function p name readArgs call result (bytes ++ p.writeMessageEnd) seqid
      = answerMessage p name seqid result <$> call args :=
  function_of_ok (hread p.writeMessageEnd) codec.messageEnd.outcome

theorem apply_known {fn : Bytes → Int32 → StateM σ (Future Bytes)} {iface : ServiceIface σ}
    (codec : p.Codec) (fits : Fits name) (hfn : Service.functionMap p iface name = some fn)
    (seqid : Int32) :
    Service.apply p iface (callMessage p name seqid bytes)
      = fn (bytes ++ p.writeMessageEnd) seqid := by
  have hmsg := codec.message ⟨name, TMessageType.call, seqid⟩ fits (by decide : (1 : UInt8) < 128)
    (bytes ++ p.writeMessageEnd)
  rw [Service.apply, callMessage, List.append_assoc, hmsg]
  simp only [hfn]

end Apply

/-! ## Client programs -/

inductive Call
  | hi
  | add (a b : Int32)
  | blockingCall
  deriving DecidableEq

inductive Value
  | text (s : String)
  | int (n : Int32)
  deriving DecidableEq

/-- A program that makes one call after the other and may look at every answer. -/
inductive ClientProgram (α : Type)
  | done (a : α)
  | call (c : Call) (next : Future Value → ClientProgram α)

def ClientProgram.run {σ α : Type} (perform : Call → StateM σ (Future Value)) :
    ClientProgram α → StateM σ α
  | .done a => pure a
  | .call c next => do
    let answer ← perform c
    (next answer).run perform

section Programs
variable {σ : Type} (p : TProtocol) (lost : Throwable → Throwable)

/-- The connection carries requests and replies; of a service that failed the client sees that the
connection was lost. -/
def connection (service : Bytes → StateM σ (Future Bytes)) : Bytes → StateM σ (Future Bytes) :=
  fun request => Except.mapError lost <$> service request

def remote (service : Bytes → StateM σ (Future Bytes)) : Call → StateM σ (Future Value)
  | .hi => Except.map .text <$> ServiceToClient.hi p service
  | .add a b => Except.map .int <$> ServiceToClient.add p service a b
  | .blockingCall => Except.map .int <$> ServiceToClient.blockingCall p service

/-- What is seen of the interface: every failure is an internal error, a `null` text is a missing
result and a `null` number an internal error. -/
def observedHi : Answer String → Future String
  | .future (.ok (some text)) => .ok text
  | .future (.ok none) => .error (.application (missingResult "hi"))
  | .null => .error (lost nullPointer)
  | _ => .error (.application (Service.internalError "hi"))

def observedInt (name : String) : Answer Int32 → Future Int32
  | .future (.ok (some n)) => .ok n
  | .null => .error (lost nullPointer)
  | _ => .error (.application (Service.internalError name))

def direct (iface : ServiceIface σ) : Call → StateM σ (Future Value)
  | .hi => (fun ans => (observedHi lost ans).map .text) <$> iface.hi
  | .add a b => (fun ans => (observedInt lost "add" ans).map .int) <$> iface.add a b
  | .blockingCall =>
    (fun ans => (observedInt lost "blocking_call" ans).map .int) <$> iface.blockingCall

end Programs

/-! ## One call -/

section OneCall
variable {σ : Type} {p : TProtocol} {lost : Throwable → Throwable} {iface : ServiceIface σ}

/-- The way of a call through both sides, given what `recv` makes of the replies. -/
theorem call_eq {A V α : Type} (call : A → StateM σ (Answer V)) {name : String}
    {readArgs : TReader A} {result : Option V → Except Throwable Bytes} {bytes : Bytes}
    {args : A} {recv : TReader α} {observe : Answer V → Future α} (codec : p.Codec)
    (fits : Fits name)
    (hfn : Service.functionMap p iface name
      = some (Service.function p name readArgs call result))
    (hread : Parses readArgs bytes args)
    (hrecv : ∀ s, ((answerMessage p name 0 result (call args s).1).mapError lost).bind recv.outcome
      = observe (call args s).1) :
    ServiceToClient.call (connection lost (Service.apply p iface)) (callMessage p name 0 bytes) recv
      = observe <$> call args := by
  have happly : Service.apply p iface (callMessage p name 0 bytes)
      = answerMessage p name 0 result <$> call args := by
    rw [apply_known codec fits hfn, function_eq hread codec]
  have hconn : connection lost (Service.apply p iface) (callMessage p name 0 bytes)
      = Except.mapError lost <$> answerMessage p name 0 result <$> call args := by
    rw [connection, happly]
  rw [ServiceToClient.call, hconn]
  funext s
  exact Prod.ext (hrecv s) rfl

theorem fits_internalError {name : String} (h : name.utf8ByteSize < 2 ^ 30) :
    (Service.internalError name).Fits := by
  intro s hs
  cases hs
  rw [Fits, String.utf8ByteSize_append]
  have : "Internal error processing ".utf8ByteSize = 26 := by decide +kernel
  omega

/-- An exception message of `Service` reaches the caller as it is. -/
theorem recv_failed {R α : Type} {name : String} {read : TReader R} {success : R → Option α}
    (lawful : p.Lawful) (h : name.utf8ByteSize < 2 ^ 30) :
    (recv p name read success 0).outcome
        (exceptionMessage p name 0 (Service.internalError name))
      = .error (.application (Service.internalError name)) := by
  have hfits : Fits name := by
    rw [Fits]
    omega
  exact (rejects_recv_exception lawful hfits (fits_internalError h)).outcome

theorem serviceToClient_hi (lawful : p.Lawful)
    (fits : ∀ s text, (iface.hi s).1 = .future (.ok (some text)) → Fits text) :
    ServiceToClient.hi p (connection lost (Service.apply p iface))
      = observedHi lost <$> iface.hi := by
  have codec := lawful.toCodec
  have hname : Fits "hi" := by decide +kernel
  have hfailed : (recvHi p 0).outcome (exceptionMessage p "hi" 0 (Service.internalError "hi"))
      = .error (.application (Service.internalError "hi")) :=
    recv_failed lawful (by decide +kernel)
  refine call_eq (fun _ : HiArgs => iface.hi) codec hname rfl
    (NoArgs.parses_writeAs codec "hi_args" {}) fun s => ?_
  cases hans : (iface.hi s).1 with
  | throws e => exact hfailed
  | null => rfl
  | future f =>
    rcases f with e | _ | text
    · exact hfailed
    · exact (rejects_recv_missing codec hname
        (HiResult.parses_write codec ⟨none⟩ (fun s hs => by cases hs)) rfl).outcome
    · have hwrite := HiResult.parses_write codec ⟨some text⟩ fun t ht => by
        cases ht
        exact fits s text hans
      have hok : Parses (recvHi p 0) (replyMessage p "hi" 0 (HiResult.write p ⟨some text⟩)) text :=
        parses_recv codec hname hwrite rfl
      exact hok.outcome

/-- The two methods that answer with a number. -/
theorem observe_int {name : String} (lawful : p.Lawful) (h : name.utf8ByteSize < 2 ^ 30)
    (ans : Answer Int32) :
    ((answerMessage p name 0 (Service.unbox (I32Result.writeAs p (name ++ "_result"))) ans).mapError
        lost).bind (recv p name (I32Result.read p {}) I32Result.success? 0).outcome
      = observedInt lost name ans := by
  have codec := lawful.toCodec
  have hfits : Fits name := by
    rw [Fits]
    omega
  cases ans with
  | throws e => exact recv_failed lawful h
  | null => rfl
  | future f =>
    rcases f with e | _ | n
    · exact recv_failed lawful h
    · exact recv_failed lawful h
    · have hok : Parses (recv p name (I32Result.read p {}) I32Result.success? 0)
          (replyMessage p name 0 (I32Result.writeAs p (name ++ "_result") ⟨n, true⟩)) n :=
        parses_recv codec hfits (I32Result.parses_writeAs codec (name ++ "_result") ⟨n, true⟩) rfl
      exact hok.outcome

theorem serviceToClient_add (lawful : p.Lawful) (a b : Int32) :
    ServiceToClient.add p (connection lost (Service.apply p iface)) a b
      = observedInt lost "add" <$> iface.add a b :=
  call_eq (fun args : AddArgs => iface.add args.a args.b) lawful.toCodec (by decide +kernel) rfl
    (AddArgs.parses_write lawful.toCodec _) fun s =>
      observe_int lawful (by decide +kernel) (iface.add a b s).1

theorem serviceToClient_blockingCall (lawful : p.Lawful) :
    ServiceToClient.blockingCall p (connection lost (Service.apply p iface))
      = observedInt lost "blocking_call" <$> iface.blockingCall :=
  call_eq (fun _ : BlockingCallArgs => iface.blockingCall) lawful.toCodec (by decide +kernel) rfl
    (NoArgs.parses_writeAs lawful.toCodec "blocking_call_args" {}) fun s =>
      observe_int lawful (by decide +kernel) (iface.blockingCall s).1

end OneCall

/-! ## Whole programs -/

section Programs
variable {σ α : Type} {p : TProtocol}

theorem remote_eq_direct (lawful : p.Lawful) (lost : Throwable → Throwable)
    (iface : ServiceIface σ)
    (fits : ∀ s text, (iface.hi s).1 = .future (.ok (some text)) → Fits text) :
    remote p (connection lost (Service.apply p iface)) = direct lost iface := by
  funext c
  cases c with
  | hi =>
    rw [remote, direct, serviceToClient_hi lawful fits]
    rfl
  | add a b =>
    rw [remote, direct, serviceToClient_add lawful]
    rfl
  | blockingCall =>
    rw [remote, direct, serviceToClient_blockingCall lawful]
    rfl

/-- A client program sees of the remote service what `direct` makes of the interface behind it: the
same values, a missing result for a `null` text, an internal error for any other failure of a call,
and a lost connection for a `null` future. It leaves the interface in the same state: every call is
carried out once, in order, with its own arguments. -/
theorem remote_run_eq_direct_run (lawful : p.Lawful) (lost : Throwable → Throwable)
    (iface : ServiceIface σ)
    (fits : ∀ s text, (iface.hi s).1 = .future (.ok (some text)) → Fits text)
    (program : ClientProgram α) (s : σ) :
    (program.run (remote p (connection lost (Service.apply p iface)))).run s
      = (program.run (direct lost iface)).run s := by
  rw [remote_eq_direct lawful lost iface fits]

/-! ### `HaverServer` -/

/-- A sign and at most 19 digits. -/
theorem length_toString_toInt (n : Int64) : (toString n.toInt).length ≤ 20 := by
  have hlow := n.le_toInt
  have hhigh := n.toInt_lt
  cases hn : n.toInt with
  | ofNat m =>
    rw [hn, Int.ofNat_eq_natCast] at hhigh
    have hdigits := Nat.repr_length m 19 (by decide) (by omega)
    change (Nat.repr m).length ≤ 20
    omega
  | negSucc m =>
    have hdigits := Nat.repr_length (m + 1) 19 (by decide) (by omega)
    change ("-" ++ Nat.repr (m + 1)).length ≤ 20
    rw [String.length_append, show "-".length = 1 from rfl]
    omega

theorem HaverServer.fits (env : Surroundings σ) (s : σ) (text : String)
    (h : ((HaverServer env).hi s).1 = .future (.ok (some text))) : Fits text := by
  have htext : "Hello, Stonehenge! At the beep, the time will be "
      ++ toString (env.currentTimeMillis s).1.toInt = text := by
    injection h with h
    injection h with h
    injection h
  have hlength := length_toString_toInt (env.currentTimeMillis s).1
  refine .of_length ?_
  rw [← htext, String.length_append,
    show "Hello, Stonehenge! At the beep, the time will be ".length = 49 from rfl]
  omega

/-- The calls on the server itself; what fails on the thread pool is an internal error. -/
def HaverServer.perform (env : Surroundings σ) : Call → StateM σ (Future Value)
  | .hi => do
    let now ← env.currentTimeMillis
    return .ok (.text ("Hello, Stonehenge! At the beep, the time will be " ++ toString now.toInt))
  | .add a b => return .ok (.int (a + b))
  | .blockingCall => do
    let delay ← env.nextInt 10
    match ← env.blockingWork delay with
    | .ok n => return .ok (.int n)
    | .error _ => return .error (.application (Service.internalError "blocking_call"))

theorem direct_haverServer (lost : Throwable → Throwable) (env : Surroundings σ) :
    direct lost (HaverServer env) = HaverServer.perform env := by
  funext c s
  cases c with
  | hi => rfl
  | add a b => rfl
  | blockingCall =>
    simp only [direct, HaverServer, HaverServer.perform, bind, StateT.bind, Functor.map, StateT.map]
    rcases env.nextInt 10 s with ⟨delay, s⟩
    dsimp only
    rcases env.blockingWork delay s with ⟨_ | n, s⟩ <;> rfl

/-- The example's own server never gives `null`, and its texts fit, so that a program sees the
greeting, the sum as it wraps, and what the thread pool answers. -/
theorem remote_run_haverServer (lawful : p.Lawful) (lost : Throwable → Throwable)
    (env : Surroundings σ) (program : ClientProgram α) (s : σ) :
    (program.run (remote p (connection lost (Service.apply p (HaverServer env))))).run s
      = (program.run (HaverServer.perform env)).run s := by
  rw [remote_eq_direct lawful lost _ (HaverServer.fits env), direct_haverServer]

/-- Counts what is asked of the surroundings; the work fails at every third. -/
def countingSurroundings : Surroundings ℕ where
  currentTimeMillis s := (1000, s + 1)
  nextInt bound s := (bound - 1, s + 1)
  blockingWork delay s := (if s % 3 = 0 then .error nullPointer else .ok delay, s)

def countingServer : ServiceIface ℕ := HaverServer countingSurroundings

/-- Adds, and asks for a blocking call when the sum has overflowed. -/
def overflowProgram : ClientProgram (Future Value) :=
  .call (.add (2 ^ 31 - 1) 1) fun answer =>
    if answer = .ok (.int (-2 ^ 31)) then .call .blockingCall .done else .done answer

theorem remote_run_overflow :
    (overflowProgram.run (remote Binary.protocol
      (connection id (Service.apply Binary.protocol countingServer)))).run 2
      = (.error (.application (Service.internalError "blocking_call")), 3) :=
  (remote_run_eq_direct_run Binary.lawful id countingServer (HaverServer.fits countingSurroundings)
    overflowProgram 2).trans (by rfl)

end Programs

end SbtExample.Haver
