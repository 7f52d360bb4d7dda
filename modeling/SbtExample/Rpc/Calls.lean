import SbtExample.Foundations.Ask
import SbtExample.Foundations.Bag
import SbtExample.Foundations.Transition
import SbtExample.Rpc.Program

/-! # Concurrent calls through one client actor

Any number of proxies, one `RpcClientActor` and any number of `RpcServerActor`s behind the router.
Messages wait in bags until the environment delivers or loses them; both asks, and both `Await`s,
may time out at any moment. A call is known by its position in `invocations`: messages and asks
carry it as a history variable that no step reads.
-/
set_option autoImplicit false
set_option maxHeartbeats 250000

namespace SbtExample.Rpc
open Bag

section Calls
variable {V : Type}

/-- A `CallMethod` on its way; the sender is the reply address of an ask. -/
structure Envelope (V : Type) where
  call : ℕ
  event : CallMethod V
  sender : ℕ

inductive Status (V : Type)
  | awaiting
  | returned (o : Obj V)
  | thrown
  deriving DecidableEq

/-- One `RpcBeanProxy.invoke`: its message, the address of its ask and what became of it. -/
structure Invocation (V : Type) where
  event : CallMethod V
  future : ℕ
  status : Status V

/-- `RpcClientActor` blocks in `Await` on the address of its own ask, for the sender of the message
that it handles. -/
inductive RpcClientActor
  | idle
  | awaiting (sender future : ℕ)
  deriving DecidableEq

structure Execution (V : Type) where
  call : ℕ
  server : ℕ
  event : CallMethod V
  outcome : Outcome V

structure System (V : Type) where
  invocations : List (Invocation V)
  asks : List (Ask.Promise ℕ (Obj V))
  toClient : List (Envelope V)
  mailbox : List (Envelope V)
  client : RpcClientActor
  toServer : List (Envelope V)
  replies : List (ℕ × Obj V)
  executions : List (Execution V)

def System.initial : System V := ⟨[], [], [], [], .idle, [], [], []⟩

inductive Label (V : Type)
  | invoke (clz : JavaClass) (method : Method) (args : List (Ref V))
  | arrive (k : ℕ)
  | clientReceive
  | clientResume
  | clientTimeout
  | serve (k server : ℕ) (outcome : Outcome V)
  | deliverReply (k : ℕ)
  | expire (address : ℕ)
  | proxyResume (i : ℕ)
  | proxyTimeout (i : ℕ)
  | loseToClient (k : ℕ)
  | loseToServer (k : ℕ)
  | loseReply (k : ℕ)

/-! ## The steps -/

/-- A thread calls a method of a proxy for `clz`: the ask to the client actor. -/
def System.invoke (s : System V) (clz : JavaClass) (method : Method) (args : List (Ref V)) :
    System V :=
  let event := RpcBeanProxy.callMethod clz method args
  { s with
    invocations := s.invocations ++ [⟨event, s.asks.length, .awaiting⟩]
    asks := Ask.fresh s.asks s.invocations.length
    toClient := ⟨s.invocations.length, event, s.asks.length⟩ :: s.toClient }

def System.arrive (s : System V) (k : ℕ) : Option (System V) :=
  (pick s.toClient k).map fun (env, rest) =>
    { s with toClient := rest, mailbox := s.mailbox ++ [env] }

/-- `RpcClientActor.onReceive` up to `Await`: the message is forwarded with an ask of its own. -/
def System.clientReceive (s : System V) : Option (System V) :=
  match s.client, s.mailbox with
  | .idle, env :: rest =>
    some { s with
      mailbox := rest
      asks := Ask.fresh s.asks env.call
      toServer := { env with sender := s.asks.length } :: s.toServer
      client := .awaiting env.sender s.asks.length }
  | _, _ => none

/-- `Await` ends with the future: a reply is told to the sender, a failure restarts the actor. -/
def System.clientResume (s : System V) : Option (System V) :=
  match s.client with
  | .idle => none
  | .awaiting sender future =>
    match Ask.future s.asks future with
    | some (.completed o) =>
      some { s with client := .idle, replies := (sender, o) :: s.replies }
    | some .failed => some { s with client := .idle }
    | _ => none

/-- `Await` itself times out: the actor is restarted and its mailbox is kept. -/
def System.clientTimeout (s : System V) : Option (System V) :=
  match s.client with
  | .idle => none
  | .awaiting _ _ => some { s with client := .idle }

/-- What `onReceive` sends back: nothing when an exception escapes. -/
def replyTo (sender : ℕ) : Except Throwable (Obj V) → List (ℕ × Obj V)
  | .error _ => []
  | .ok o => [(sender, o)]

/-- The router has passed the message at position `k` to a server, which now handles it. -/
def System.serve (services : ℕ → Services V) (s : System V) (k server : ℕ) (outcome : Outcome V) :
    Option (System V) :=
  (pick s.toServer k).map fun (env, rest) =>
    { s with
      toServer := rest
      executions := ⟨env.call, server, env.event, outcome⟩ :: s.executions
      replies := replyTo env.sender
        ((RpcServerActor.new (services server)).onReceive env.event outcome).reply ++ s.replies }

def System.deliverReply (s : System V) (k : ℕ) : Option (System V) :=
  (pick s.replies k).map fun (reply, rest) =>
    { s with replies := rest, asks := Ask.settle s.asks reply.1 (.completed reply.2) }

def System.setStatus (s : System V) (i : ℕ) (status : Status V) : System V :=
  { s with invocations := s.invocations.modify i fun inv => { inv with status := status } }

/-- `Await` of the proxy ends with the future. -/
def System.proxyResume (s : System V) (i : ℕ) : Option (System V) :=
  match s.invocations[i]? with
  | some ⟨_, future, .awaiting⟩ =>
    match Ask.future s.asks future with
    | some (.completed o) => some (s.setStatus i (.returned o))
    | some .failed => some (s.setStatus i .thrown)
    | _ => none
  | _ => none

def System.proxyTimeout (s : System V) (i : ℕ) : Option (System V) :=
  match s.invocations[i]? with
  | some ⟨_, _, .awaiting⟩ => some (s.setStatus i .thrown)
  | _ => none

/-- `services server` is the map that the server was started with. -/
def step (services : ℕ → Services V) (s : System V) : Label V → Option (System V)
  | .invoke clz method args => some (s.invoke clz method args)
  | .arrive k => s.arrive k
  | .clientReceive => s.clientReceive
  | .clientResume => s.clientResume
  | .clientTimeout => s.clientTimeout
  | .serve k server outcome => s.serve services k server outcome
  | .deliverReply k => s.deliverReply k
  | .expire address => some { s with asks := Ask.settle s.asks address .failed }
  | .proxyResume i => s.proxyResume i
  | .proxyTimeout i => s.proxyTimeout i
  | .loseToClient k => (pick s.toClient k).map fun (_, rest) => { s with toClient := rest }
  | .loseToServer k => (pick s.toServer k).map fun (_, rest) => { s with toServer := rest }
  | .loseReply k => (pick s.replies k).map fun (_, rest) => { s with replies := rest }

abbrev Reaches (services : ℕ → Services V) (s : System V) : Prop :=
  Transition.Reachable (step services) .initial s

end Calls

end SbtExample.Rpc
