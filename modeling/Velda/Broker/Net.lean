import Mathlib
import Velda.Broker.Scheduler

/-! Identities of the parties of a broker, and the channels between them. The
identities of the connections and sessions that appear in a run are given by a
`Config`; a connection of an agent and a `Session` object are named by a pointer.
Channels have no bound here: a send that would block is a send that has not been
made yet. The `agentChan` of a session is its part of one list of all matches. -/
namespace Velda.Broker
open Lib

abbrev AgentPtr := Nat
abbrev SessionPtr := Nat
abbrev GangPtr := Nat
abbrev Time := Nat

structure SessionKey where
  instanceId : Int
  sessionId : String
  deriving DecidableEq

/-- The gang of a session and its `Workload.ShardIndex`. -/
structure Shard where
  gang : GangPtr
  shardIndex : Int
  deriving DecidableEq

/-- A `proto.SessionRequest` with the pool whose scheduler the session was given. -/
structure Request where
  key : SessionKey
  pool : String
  scheduler : String
  priority : Int := 0
  taskId : String := ""
  serviceName : String := ""
  shard : Option Shard := none
  deriving DecidableEq

structure AgentIdentity where
  agentId : String
  pool : String
  slots : Int
  deriving DecidableEq

structure Config where
  agent : AgentPtr → AgentIdentity
  request : SessionPtr → Request
  desired : GangPtr → Nat

namespace Config
variable (cfg : Config)

def agentId (a : AgentPtr) : String := (cfg.agent a).agentId

def agentPool (a : AgentPtr) : String := (cfg.agent a).pool

def slots (a : AgentPtr) : Nat :=
  if (cfg.agent a).slots ≤ 0 then 1 else (cfg.agent a).slots.toNat

def key (x : SessionPtr) : SessionKey := (cfg.request x).key

def scheduler (x : SessionPtr) : String := (cfg.request x).scheduler

/-- `Priority()` and `ID()`. -/
def rank (x : SessionPtr) : Rank := ((cfg.request x).priority, (cfg.request x).key.sessionId)

def batched (x : SessionPtr) : Bool := (cfg.request x).pool.toList.contains ':'

lemma slots_pos (a : AgentPtr) : 0 < cfg.slots a := by
  unfold slots
  split <;> omega

end Config

/-- The context of a caller of `Schedule`. -/
inductive Ctx
  | server
  | caller (n : Nat)
  deriving DecidableEq

inductive AgentError
  | stopping | failedToStart (agentId : String) | grant | send
  deriving DecidableEq

inductive AgentSessionResponse
  | started
  | error (e : AgentError)
  deriving DecidableEq

structure SessionRequest where
  session : SessionPtr
  ctx : Option Ctx
  accept : Bool
  holdResourceOnly : Bool := false
  deriving DecidableEq

/-- The second request of a gang member, which answers no offer of the agent. -/
def SessionRequest.isRelease (cfg : Config) (r : SessionRequest) : Bool :=
  r.accept && !r.holdResourceOnly && (cfg.request r.session).shard.isSome

structure KillRequest where
  key : SessionKey
  force : Bool
  deriving DecidableEq

inductive Send
  | session (x : SessionPtr) (ctx : Option Ctx)
  | kill (k : KillRequest)
  deriving DecidableEq

def Send.session? : Send → Option SessionPtr
  | .session x _ => some x
  | .kill _ => none

structure SessionCompletion where
  key : SessionKey
  checkpointed : Bool
  hasResult : Bool
  deriving DecidableEq

structure AgentUpdateRequest where
  sessionInitResponse : Option (SessionKey × Bool) := none
  sessionCompletion : Option SessionCompletion := none
  deriving DecidableEq

structure Net (cfg : Config) where
  schedulers : String → Scheduler cfg.agentId cfg.rank
  agentChan : List (SessionPtr × AgentPtr)
  sessionConfirm : SessionPtr → Nat
  agentConfirm : AgentPtr → Nat
  sessionReq : AgentPtr → List SessionRequest
  agentResponse : SessionPtr → List AgentSessionResponse
  statusChan : AgentPtr → Nat
  killChan : AgentPtr → List KillRequest
  resChan : AgentPtr → List Send
  reqChan : AgentPtr → Option AgentUpdateRequest

namespace Net
variable {cfg : Config}

def empty : Net cfg :=
  ⟨fun _ => .empty, [], fun _ => 0, fun _ => 0, fun _ => [], fun _ => [], fun _ => 0, fun _ => [],
    fun _ => [], fun _ => none⟩

def modifyScheduler (n : Net cfg) (pool : String)
    (f : Scheduler cfg.agentId cfg.rank → Scheduler cfg.agentId cfg.rank) : Net cfg :=
  { n with schedulers := Function.update n.schedulers pool (f (n.schedulers pool)) }

def addAgent (n : Net cfg) (a : AgentPtr) : Net cfg :=
  n.modifyScheduler (cfg.agentPool a) fun p => { p with agents := p.agents.sendAdd a }

def removeAgent (n : Net cfg) (a : AgentPtr) : Net cfg :=
  n.modifyScheduler (cfg.agentPool a) fun p => { p with agents := p.agents.sendRemove a }

def addSession (n : Net cfg) (x : SessionPtr) : Net cfg :=
  n.modifyScheduler (cfg.scheduler x) fun p => { p with sessions := p.sessions.sendAdd x }

def removeSession (n : Net cfg) (x : SessionPtr) : Net cfg :=
  n.modifyScheduler (cfg.scheduler x) fun p => { p with sessions := p.sessions.sendRemove x }

def request (n : Net cfg) (a : AgentPtr) (r : SessionRequest) : Net cfg :=
  { n with sessionReq := Function.update n.sessionReq a (n.sessionReq a ++ [r]) }

def respond (n : Net cfg) (x : SessionPtr) (r : AgentSessionResponse) : Net cfg :=
  { n with agentResponse := Function.update n.agentResponse x (n.agentResponse x ++ [r]) }

def requestKill (n : Net cfg) (a : AgentPtr) (k : KillRequest) : Net cfg :=
  { n with killChan := Function.update n.killChan a (n.killChan a ++ [k]) }

/-- How often an agent is on offer: on its way to the scheduler, in its set, matched with a
session, or answered by a session with the answer not yet read. -/
def offers (n : Net cfg) (a : AgentPtr) : Nat :=
  (n.schedulers (cfg.agentPool a)).agents.waiting a + n.agentChan.countP (·.2 = a) +
    (n.sessionReq a).countP (!·.isRelease cfg)

/-- How often a session is queued, matched, or withdrawn with the confirmation not yet read. -/
def tokens (n : Net cfg) (x : SessionPtr) : Nat :=
  (n.schedulers (cfg.scheduler x)).sessions.waiting x + n.agentChan.countP (·.1 = x) +
    n.sessionConfirm x

end Net

end Velda.Broker
