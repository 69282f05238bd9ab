import Velda.Broker.Net

/-! The parties of a broker: sessions with their schedule loops, connections of agents,
gang coordinators, and the session database. A session's `cancelSignal`, its stale
timer and its `staleReconnect` channel are made anew each time a loop is started;
the number of such starts is its generation, and a loop listens to the channels of
one generation. The `Reconnected` and `Terminated` states of the source, in which a
loop only returns, are the end of a loop here. -/
namespace Velda.Broker
open Lib

inductive ExecutionStatus
  | unspecified | queueing | running | terminated | cancelled | stale | checkpointed
  | waitingForOtherShards
  deriving DecidableEq

def ExecutionStatus.terminal : ExecutionStatus → Bool
  | .terminated | .cancelled => true
  | _ => false

inductive FinalState
  | complete | cancelled | startupFailure | workerLost | noQuota | checkpointed
  deriving DecidableEq

inductive SchedulingError
  | quota | allContextsCancelled | killed | serverShutdown | agent (e : AgentError)
  deriving DecidableEq

/-- `awaitingKill` is the wait for the agent's response after a kill in `sentToAgent`. -/
inductive SchedulingState
  | created | queueing | sentToAgent | awaitingKill | cancelling | stale | staleCancelled
  | staleTimerExpired
  deriving DecidableEq

structure Loop where
  state : SchedulingState
  ctx : Option Ctx
  generation : Nat
  deriving DecidableEq

/-- `cancelSignal` and `staleReconnect` list the generations whose channel holds a signal,
or is closed. -/
structure Session where
  status : ExecutionStatus := .unspecified
  agent : Option AgentPtr := none
  scheduleCtx : List Ctx := []
  generation : Nat := 0
  cancelSignal : List Nat := []
  staleReconnect : List Nat := []
  schedulingErr : Option SchedulingError := none
  startTime : Option Time := none
  lastActiveTime : Time := 0
  loops : List Loop := []
  deriving DecidableEq

/-- A connection is `dropped` when `AgentUpdate` returns without having called `Run`. -/
inductive Phase
  | absent | registering | running | returned | dropped
  deriving DecidableEq

def Phase.started : Phase → Bool
  | .running | .returned => true
  | _ => false

structure Agent (cfg : Config) where
  phase : Phase := .absent
  mySessions : Keyed cfg.key := .empty
  receiving : Bool := false
  stopping : Bool := false
  shutdownRequested : Bool := false
  lastMessageTime : Time := 0

/-- What a member registers with its gang; `cleanup` is the extra member of the tracker. -/
inductive Callback (cfg : Config)
  | release (x : SessionPtr) (member : (cfg.request x).shard.isSome = true) (ctx : Option Ctx)
  | cleanup

structure GangCoordinator (cfg : Config) where
  notif : Keyed (Prod.fst : Int × Callback cfg → Int)
  triggered : Bool

structure SessionDatabase where
  sessions : SessionKey → Option SessionPtr
  services : Int × String → List String

/-- Calls to the pool manager, to the access helper and to the accounting, requests for kills
and messages to agents. -/
inductive Event
  | requestWorker (x : SessionPtr)
  | requestCancelled (x : SessionPtr)
  | notifyAgentAvailable (a : AgentPtr) (busy : Bool) (slots : Int)
  | markBusy (a : AgentPtr) (slots : Int)
  | markIdle (a : AgentPtr) (slots : Int)
  | markDeleting (a : AgentPtr)
  | markLost (a : AgentPtr)
  | grantAccess (a : AgentPtr) (x : SessionPtr)
  | reGrantAccess (a : AgentPtr) (x : SessionPtr)
  | revokeAccess (a : AgentPtr) (x : SessionPtr)
  | sendSession (a : AgentPtr) (x : SessionPtr)
  | sendKill (a : AgentPtr) (k : KillRequest)
  | requestKill (a : AgentPtr) (k : KillRequest)
  /-- A call of `Kill` that returned nil, with the status it found. -/
  | killed (x : SessionPtr) (status : ExecutionStatus)
  | updateTaskResult (x : SessionPtr)
  | recordExecution (x : SessionPtr) (final : FinalState)
  deriving DecidableEq

structure State (cfg : Config) where
  net : Net cfg
  agents : AgentPtr → Agent cfg
  sessions : SessionPtr → Session
  gangs : GangPtr → GangCoordinator cfg
  db : SessionDatabase
  created : List SessionPtr
  connected : List AgentPtr
  cancelledCtx : List Nat
  now : Time
  serverDone : Bool
  crashed : Bool
  /-- Newest first. -/
  events : List Event

namespace State
variable {cfg : Config}

def init : State cfg where
  net := .empty
  agents := fun _ => {}
  sessions := fun _ => {}
  gangs := fun _ => ⟨Keyed.empty.insert (-1, .cleanup), false⟩
  db := ⟨fun _ => none, fun _ => []⟩
  created := []
  connected := []
  cancelledCtx := []
  now := 1
  serverDone := false
  crashed := false
  events := []

def modifyAgent (s : State cfg) (a : AgentPtr) (f : Agent cfg → Agent cfg) : State cfg :=
  { s with agents := Function.update s.agents a (f (s.agents a)) }

def modifySession (s : State cfg) (x : SessionPtr) (f : Session → Session) : State cfg :=
  { s with sessions := Function.update s.sessions x (f (s.sessions x)) }

def modifyNet (s : State cfg) (f : Net cfg → Net cfg) : State cfg := { s with net := f s.net }

def emit (s : State cfg) (e : Event) : State cfg := { s with events := e :: s.events }

def ctxDone (s : State cfg) : Ctx → Bool
  | .server => s.serverDone
  | .caller n => s.cancelledCtx.contains n

end State

def SessionDatabase.remove (db : SessionDatabase) (r : Request) : SessionDatabase where
  sessions := Function.update db.sessions r.key none
  services :=
    if r.serviceName = "" then db.services
    else Function.update db.services (r.key.instanceId, r.serviceName)
      ((db.services (r.key.instanceId, r.serviceName)).filter (· ≠ r.key.sessionId))

def SessionDatabase.register (db : SessionDatabase) (r : Request) (x : SessionPtr) :
    SessionDatabase where
  sessions := Function.update db.sessions r.key (some x)
  services :=
    if r.serviceName = "" then db.services
    else Function.update db.services (r.key.instanceId, r.serviceName)
      (r.key.sessionId :: (db.services (r.key.instanceId, r.serviceName)).filter
        (· ≠ r.key.sessionId))

end Velda.Broker
