import SbtExample.Foundations.JavaText
import SbtExample.Rpc.Restart

/-! # The start of a server (`AkkaRpcServer.start`, `AkkaRpcServer.close`)

`start` creates the actor system first, then parses and joins the seed nodes one by one, then
creates the server actor; nothing catches what the parsing throws. Whether a system can be created
from a name and a configuration is a parameter; a creation that fails leaves none behind.
-/
set_option autoImplicit false
set_option maxHeartbeats 250000

namespace SbtExample.Rpc.ServerStart
open JavaText Restart

section Start
variable {V : Type}

structure AkkaRpcServer (V : Type) where
  services : ServiceMap V
  port : String
  hostName : String
  akkaSystemName : String
  seedNodes : List String

structure Address where
  protocol : String
  system : String
  host : String
  port : Int32
  deriving DecidableEq

inductive Effect (V : Type)
  | create (name : String) (config : List String)
  | join (address : Address)
  | actorOf (props : ServiceMap V) (name : String)
  | shutdown

inductive Exception
  | systemCreation
  | arrayIndexOutOfBounds
  | numberFormat
  deriving DecidableEq

/-- The constructor's fields, which the setters may replace. -/
def AkkaRpcServer.new : AkkaRpcServer V :=
  ⟨⟨∅, none⟩, "9911", "127.0.0.1", "AkkaRpcSystem", ["127.0.0.1:9911", "127.0.0.1:8811"]⟩

/-- The four texts that `ConfigFactory` parses. -/
def AkkaRpcServer.config (s : AkkaRpcServer V) : List String :=
  ["akka.actor.provider=akka.cluster.ClusterActorRefProvider",
    "akka.remote.netty.tcp.hostname=" ++ s.hostName, "akka.remote.netty.tcp.port=" ++ s.port,
    "akka.cluster.roles = [RpcServer]"]

/-- The address of a seed node, from `hosts[0]` and `Integer.valueOf(hosts[1])`. -/
def parseAddress (akkaSystemName hostPort : String) : Except Exception Address :=
  match split hostPort ':' with
  | host :: port :: _ =>
    match valueOf port with
    | none => .error .numberFormat
    | some port => .ok ⟨"akka.tcp", akkaSystemName, host, port⟩
  | _ => .error .arrayIndexOutOfBounds

/-- The loop over the seed nodes: what it did, and how it ended. -/
def joinAll (akkaSystemName : String) : List String → List (Effect V) × Except Exception Unit
  | [] => ([], .ok ())
  | hostPort :: seedNodes =>
    match parseAddress akkaSystemName hostPort with
    | .error e => ([], .error e)
    | .ok address =>
      let rest := joinAll akkaSystemName seedNodes
      (.join address :: rest.1, rest.2)

def AkkaRpcServer.start (creates : String → List String → Bool) (s : AkkaRpcServer V) :
    List (Effect V) × Except Exception Unit :=
  if creates s.akkaSystemName s.config then
    match joinAll s.akkaSystemName s.seedNodes with
    | (joined, .error e) => (.create s.akkaSystemName s.config :: joined, .error e)
    | (joined, .ok ()) =>
      (.create s.akkaSystemName s.config :: joined ++ [.actorOf s.services "rpcServer"], .ok ())
  else ([], .error .systemCreation)

/-- `close`, after a `start` that has created the system. -/
def AkkaRpcServer.close : List (Effect V) := [.shutdown]

def running (effects : List (Effect V)) : Bool :=
  effects.foldl (fun running effect =>
    match effect with
    | .create _ _ => true
    | .shutdown => false
    | _ => running) false

/-! ## All or nothing -/

/-- The entry is the host, one colon and the port. -/
def HostPort (hostPort host : String) (port : Int32) : Prop :=
  ∃ text, hostPort = host ++ ":" ++ text ∧ ':' ∉ host.toList ∧ valueOf text = some port

def joins (akkaSystemName : String) (hosts : List (String × Int32)) : List (Effect V) :=
  hosts.map fun h => .join ⟨"akka.tcp", akkaSystemName, h.1, h.2⟩

/-- Every entry was parsed and joined, in the order of the list, and then the actor was created. -/
def Started (s : AkkaRpcServer V) (effects : List (Effect V)) : Prop :=
  ∃ hosts, List.Forall₂ (fun hostPort h => HostPort hostPort h.1 h.2) s.seedNodes hosts ∧
    effects = .create s.akkaSystemName s.config :: joins s.akkaSystemName hosts ++
      [.actorOf s.services "rpcServer"]

def AllOrNothing (creates : String → List String → Bool) (s : AkkaRpcServer V) : Prop :=
  ((s.start creates).2 = .ok () ∧ Started s (s.start creates).1) ∨
    ((∃ e, (s.start creates).2 = .error e) ∧
      (∀ address, .join address ∉ (s.start creates).1) ∧ running (s.start creates).1 = false)

theorem parseAddress_hostPort {akkaSystemName hostPort host : String} {port : Int32}
    (h : HostPort hostPort host port) :
    parseAddress akkaSystemName hostPort = .ok ⟨"akka.tcp", akkaSystemName, host, port⟩ := by
  obtain ⟨text, rfl, hhost, hport⟩ := h
  have htext : ':' ∉ text.toList := by
    intro hc
    rcases mem_of_valueOf hport ':' hc with h | h | h
    · cases h
    · cases h
    · exact h (by decide)
  have hsplit : split (host ++ ":" ++ text) ':' = [host, text] := by
    refine split_pair ?_ hhost htext (ne_empty_of_valueOf hport)
    rw [String.toList_append, String.toList_append, List.append_assoc]
    rfl
  unfold parseAddress
  rw [hsplit]
  simp only [hport]

theorem joinAll_hostPorts (akkaSystemName : String) (seedNodes : List String)
    (h : ∀ hostPort ∈ seedNodes, ∃ host port, HostPort hostPort host port) :
    ∃ hosts, List.Forall₂ (fun hostPort h => HostPort hostPort h.1 h.2) seedNodes hosts ∧
      joinAll (V := V) akkaSystemName seedNodes = (joins akkaSystemName hosts, .ok ()) := by
  induction seedNodes with
  | nil => exact ⟨[], .nil, rfl⟩
  | cons hostPort seedNodes ih =>
    obtain ⟨hosts, hall, hjoin⟩ := ih fun e he => h e (List.mem_cons_of_mem _ he)
    obtain ⟨host, port, hhp⟩ := h hostPort (List.mem_cons_self ..)
    refine ⟨(host, port) :: hosts, .cons hhp hall, ?_⟩
    rw [joinAll, parseAddress_hostPort hhp]
    simp only [hjoin]
    rfl

/-- The joins neither create nor end a system. -/
theorem running_joinAll (akkaSystemName : String) (seedNodes : List String)
    (effects : List (Effect V)) :
    running (effects ++ (joinAll akkaSystemName seedNodes).1) = running effects := by
  induction seedNodes generalizing effects with
  | nil => rw [joinAll, List.append_nil]
  | cons hostPort seedNodes ih =>
    rw [joinAll]
    cases parseAddress akkaSystemName hostPort with
    | error e => rw [List.append_nil]
    | ok address =>
      have hcons := ih (effects ++ [.join address])
      rw [List.append_assoc] at hcons
      apply hcons.trans
      simp [running]

/-- Once the system is created, no end of `start` takes it down. -/
theorem running_start {creates : String → List String → Bool} {s : AkkaRpcServer V}
    (h : creates s.akkaSystemName s.config = true) : running (s.start creates).1 = true := by
  have hcreated := running_joinAll s.akkaSystemName s.seedNodes
    [(.create s.akkaSystemName s.config : Effect V)]
  unfold AkkaRpcServer.start
  rw [if_pos h]
  generalize (joinAll s.akkaSystemName s.seedNodes : List (Effect V) × _) = joining at hcreated ⊢
  obtain ⟨joined, result⟩ := joining
  cases result with
  | error e => exact hcreated
  | ok u =>
    have hactor : running (.create s.akkaSystemName s.config :: joined ++
        [.actorOf s.services "rpcServer"]) =
          running (.create s.akkaSystemName s.config :: joined) := by
      simp [running]
    exact hactor.trans hcreated

/-- The system of a failed start goes down with the `close` that the caller owes it. -/
theorem running_close (creates : String → List String → Bool) (s : AkkaRpcServer V) :
    running ((s.start creates).1 ++ AkkaRpcServer.close) = false := by
  unfold running AkkaRpcServer.close
  rw [List.foldl_append]
  rfl

theorem exists_of_forall₂ {α β : Type} {R : α → β → Prop} {l : List α} {l' : List β}
    (h : List.Forall₂ R l l') (a : α) (ha : a ∈ l) : ∃ b, R a b := by
  induction h with
  | nil => cases ha
  | cons hr _ ih =>
    rcases List.mem_cons.mp ha with rfl | ha
    · exact ⟨_, hr⟩
    · exact ih ha

theorem new_hostPorts (hostPort : String)
    (h : hostPort ∈ (AkkaRpcServer.new : AkkaRpcServer V).seedNodes) :
    ∃ host port, HostPort hostPort host port := by
  have hmem : hostPort = "127.0.0.1:9911" ∨ hostPort = "127.0.0.1:8811" := by
    simpa [AkkaRpcServer.new] using h
  rcases hmem with rfl | rfl
  · exact ⟨"127.0.0.1", 9911, "9911", by decide, by decide, by decide⟩
  · exact ⟨"127.0.0.1", 8811, "8811", by decide, by decide, by decide⟩

/-- A start that got no system, or whose entries are all a host and a port, and no other start. -/
theorem all_or_nothing_iff (creates : String → List String → Bool) (s : AkkaRpcServer V) :
    AllOrNothing creates s ↔ creates s.akkaSystemName s.config = false ∨
      ∀ hostPort ∈ s.seedNodes, ∃ host port, HostPort hostPort host port := by
  cases h : creates s.akkaSystemName s.config with
  | false =>
    refine iff_of_true (Or.inr ?_) (Or.inl rfl)
    unfold AkkaRpcServer.start
    simp [h, running]
  | true =>
    constructor
    · rintro (⟨-, hosts, hall, -⟩ | ⟨-, -, hrun⟩)
      · refine Or.inr fun hostPort hmem => ?_
        obtain ⟨h, hhp⟩ := exists_of_forall₂ hall hostPort hmem
        exact ⟨h.1, h.2, hhp⟩
      · rw [running_start h] at hrun
        cases hrun
    · rintro (hfalse | hall)
      · cases hfalse
      · obtain ⟨hosts, hparsed, hjoin⟩ :=
          joinAll_hostPorts (V := V) s.akkaSystemName s.seedNodes hall
        have hstart : s.start creates = (.create s.akkaSystemName s.config ::
            joins s.akkaSystemName hosts ++ [.actorOf s.services "rpcServer"], .ok ()) := by
          unfold AkkaRpcServer.start
          rw [if_pos h, hjoin]
        rw [AllOrNothing, hstart]
        exact Or.inl ⟨rfl, hosts, hparsed, rfl⟩

end Start

/-- The first entry is joined, the second one has no port, and the system is left running. -/
theorem start_aborts_halfway :
    ¬ ∀ (creates : String → List String → Bool) (s : AkkaRpcServer Unit),
      AllOrNothing creates s := by
  intro h
  rcases h (fun _ _ => true) { AkkaRpcServer.new with seedNodes := ["127.0.0.1:9911", "localhost"] }
    with ⟨hok, -⟩ | ⟨-, -, hrun⟩
  · have herror : Except.error Exception.arrayIndexOutOfBounds = Except.ok () := hok
    cases herror
  · have hleft : true = false := hrun
    cases hleft

end SbtExample.Rpc.ServerStart
