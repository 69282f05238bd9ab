import Velda.Broker.References
import Velda.TaskStore.Subtasks

/-! A broker with its task tracker and the task store: `pkg/broker/task_tracker.go`, the
tracker's part of `AgentUpdate`, and the poll loop of `pkg/db/sqlite/db.go`. A turn of
the broker is followed by what its events mean to the tracker: a result is written, and
the completion that the tracker has added to a session runs. A `map` of the source is
named by a pointer, because completions keep the map they were made with. -/
namespace Velda.Tracker
open Lib Broker TaskStore

/-- The part of a workload that the tracker reads; `gang` is its shard scheduling. -/
structure Workload where
  totalShards : Int
  shardIndex : Int
  gang : Bool
  serviceName : String
  deriving DecidableEq

def Workload.toShard (w : Workload) : Bool := 0 < w.totalShards && w.shardIndex < 0

/-- The identity in leases, `AllowCreateNewPool`, the encoding of workloads and the intervals
of the cleanup of cancelled jobs. -/
structure Setup where
  identity : String
  allowCreateNewPool : Bool
  marshal : Workload → List UInt8
  unmarshal : List UInt8 → Workload
  cleanupAfterCancel : Nat
  cleanupMinimumInterval : Nat

def cleanupMaxCancelledJobs : Nat := 128

/-- `path.Split` of a task id. -/
def taskKey (id : String) : TaskKey :=
  match ((id.toList.splitOn '/').map String.ofList).reverse with
  | [] => ⟨[], id⟩
  | taskId :: parentId => ⟨parentId, taskId⟩

def task (cfg : Config) (x : SessionPtr) : Option TaskKey :=
  if (cfg.request x).taskId = "" then none else some (taskKey (cfg.request x).taskId)

/-- What a call of the store comes to: whether it fails, the result an agent sent, and the
times that are read. -/
structure Answer where
  fails : Bool := false
  result : BatchTaskResult := ⟨none, 0⟩
  clock : Nat → Nat := fun _ => 0

/-- `UpdateTaskFinalResult`, whose error is only logged; `none` where its query does not end. -/
def write (s : Store) (k : TaskKey) (r : FinalResult) (o : Answer) : Option Store :=
  if o.fails ∨ s.find k = none then some s else updateTaskFinalResult s k r o.clock

def cancelledResult : FinalResult := { payload := ⟨none, 0⟩, cancelled := true }

/-- A goroutine that calls `Schedule`. `generation` is the loop whose end it waits for, once
it waits; it marks the row when it `reports` and the call returns an error. -/
structure Goroutine where
  session : SessionPtr
  ctx : Ctx
  reports : Bool
  generation : Option Nat := none
  deriving DecidableEq

/-- `batch` are the leased rows whose callback has not run. `jobs` and `maps` are
`leasedSessions`, and `home` is the map that the completion of a session has. -/
structure TaskTracker (cfg : Config) where
  broker : State cfg
  store : Store
  leasers : List (String × Nat)
  pools : List String
  gangs : List (List Name × GangPtr)
  polling : Bool
  batch : List Task
  jobs : Name → Option Nat
  maps : List (List (TaskKey × SessionPtr))
  home : SessionPtr → Option Nat
  goroutines : List Goroutine
  cancelled : List (Name × Nat)
  lastCleanup : Nat

variable {cfg : Config}

namespace TaskTracker

def init : TaskTracker cfg where
  broker := .init
  store := .empty
  leasers := []
  pools := []
  gangs := []
  polling := true
  batch := []
  jobs := fun _ => none
  maps := []
  home := fun _ => none
  goroutines := []
  cancelled := []
  lastCleanup := 0

def entries (tr : TaskTracker cfg) (m : Nat) : List (TaskKey × SessionPtr) := (tr.maps[m]?).getD []

/-- `leasedSessions[jobId][taskId]`. -/
def leasedSession (tr : TaskTracker cfg) (k : TaskKey) : Option SessionPtr :=
  (tr.jobs k.jobId).bind fun m => (tr.entries m).lookup k

def isCancelled (tr : TaskTracker cfg) (jobId : Name) : Bool := tr.cancelled.any (·.1 = jobId)

/-- `delete` of a task from its map, and of a map that is empty then. -/
def unregister (tr : TaskTracker cfg) (m : Nat) (k : TaskKey) : TaskTracker cfg :=
  let rest := (tr.entries m).filter (·.1 ≠ k)
  { tr with
    maps := tr.maps.set m rest
    jobs := if rest = [] then Function.update tr.jobs k.jobId none else tr.jobs }

def completion (tr : TaskTracker cfg) (x : SessionPtr) (o : Answer) : Option (TaskTracker cfg) :=
  match tr.home x, task cfg x with
  | some m, some k =>
    if tr.isCancelled k.jobId then
      (write tr.store k cancelledResult o).map fun s => { tr.unregister m k with store := s }
    else some (tr.unregister m k)
  | _, _ => some tr

def told (tr : TaskTracker cfg) (o : Answer) : Event → Option (TaskTracker cfg)
  | .updateTaskResult x =>
    match task cfg x with
    | some k =>
      let result := { payload := o.result, startTime := ((tr.broker.sessions x).startTime).getD 0 }
      (write tr.store k result o).map fun s => { tr with store := s }
    | none => some tr
  | .recordExecution x final => if final = .checkpointed then some tr else tr.completion x o
  | _ => some tr

def deliver : List Event → List Answer → TaskTracker cfg → Option (TaskTracker cfg)
  | [], _, tr => some tr
  | e :: rest, os, tr => (tr.told (os.headD {}) e).bind (deliver rest os.tail)

def turn (tr : TaskTracker cfg) (act : Broker.Action) (os : List Answer) : Option (TaskTracker cfg) :=
  (Broker.step tr.broker act).bind fun t =>
    deliver (tr.broker.news t) os { tr with broker := t }

def registered (tr : TaskTracker cfg) (k : TaskKey) (x : SessionPtr) : TaskTracker cfg :=
  let m := (tr.jobs k.jobId).getD tr.maps.length
  let maps := if m < tr.maps.length then tr.maps else tr.maps ++ [[]]
  { tr with
    jobs := Function.update tr.jobs k.jobId (some m)
    maps := maps.set m ((k, x) :: (tr.entries m).filter (·.1 ≠ k))
    home := Function.update tr.home x (some m) }

/-- `none` for a job that is cancelled. -/
def registerSession (tr : TaskTracker cfg) (k : TaskKey) (x : SessionPtr) :
    Option (TaskTracker cfg) :=
  if tr.isCancelled k.jobId then none else some (tr.registered k x)

def poll (tr : TaskTracker cfg) (identity : String) : Option (TaskTracker cfg) :=
  if tr.polling ∧ tr.batch = [] then
    some { tr with
      store := (pollTasksOnce tr.store identity).1
      batch := (pollTasksOnce tr.store identity).2 }
  else none

def getPool (tr : TaskTracker cfg) (setup : Setup) (pool : String) : Bool :=
  pool ∈ tr.pools || setup.allowCreateNewPool

def inUse (tr : TaskTracker cfg) (instanceId : Int) (serviceName : String) : Bool :=
  serviceName ≠ "" && (tr.broker.db.services (instanceId, serviceName)).any fun id =>
    (tr.broker.db.sessions ⟨instanceId, id⟩).isSome

end TaskTracker

/-- What a callback meets besides the tracker: the shard whose row cannot be created, whether
the poll was a periodic one, the context that is cancelled at once, and the calls. -/
structure Callback where
  failedShard : Option Nat := none
  periodic : Bool := false
  ctx : Nat := 0
  answer : Answer := {}

def shardRequest (setup : Setup) (row : Task) (w : Workload) (pool : String) (i : Nat) :
    TaskStore.SessionRequest :=
  let serviceName :=
    if w.serviceName.endsWith "-" then w.serviceName ++ toString i else w.serviceName
  { taskId := ⟨row.key.childrenId, toString i⟩
    dependencies := []
    pool := pool
    instanceId := row.instanceId
    priority := row.priority
    workload := setup.marshal { w with shardIndex := i, serviceName := serviceName } }

/-- The rows of the shards from `i` on; false when one of them cannot be created. -/
def createShards (setup : Setup) (row : Task) (w : Workload) (pool : String) (c : Callback) :
    (count i : Nat) → Store → Store × Bool
  | 0, _, s => (s, true)
  | count + 1, i, s =>
    if c.failedShard = some i then (s, false)
    else
      match createTask s (shardRequest setup row w pool i) (c.answer.clock i) with
      | none => (s, false)
      | some (s, _) => createShards setup row w pool c count (i + 1) s

namespace TaskTracker

/-- The callback for a sharded task: a row for every shard, and the end of its own. -/
def shards (tr : TaskTracker cfg) (setup : Setup) (row : Task) (w : Workload) (c : Callback) :
    Option (TaskTracker cfg) :=
  let batched := w.gang && tr.getPool setup row.pool
  let pool := if batched then row.pool ++ ":" ++ "/".intercalate (row.key.childrenId.reverse)
    else row.pool
  let tr := { tr with
    pools := if batched then (tr.pools.insert row.pool).insert pool else tr.pools }
  match createShards setup row w pool c w.totalShards.toNat 0 tr.store with
  | (s, false) => some { tr with store := s, batch := [], polling := c.periodic }
  | (s, true) =>
    (write s row.key { payload := ⟨some 0, 0⟩, startTime := c.answer.clock 0 } c.answer).map
      fun s => { tr with store := s }

def gangOf (tr : TaskTracker cfg) (parentId : List Name) : Option GangPtr :=
  (tr.gangs.find? fun g => g.1 = parentId ∧ (tr.broker.gangs g.2).triggered = false).map (·.2)

/-- `getOrCreateGang`, with `g` as the new coordinator when one is made. -/
def getOrCreateGang (tr : TaskTracker cfg) (parentId : List Name) (g : GangPtr) : Option GangPtr :=
  match tr.gangOf parentId with
  | some found => some found
  | none => if tr.gangs.any (·.2 = g) then none else some g

def Requests (tr : TaskTracker cfg) (row : Task) (w : Workload) (x : SessionPtr) : Prop :=
  let r := cfg.request x
  task cfg x = some row.key ∧ r.key.instanceId = row.instanceId ∧ r.pool = row.pool ∧
    r.scheduler = row.pool ∧ r.priority = row.priority ∧ r.serviceName = w.serviceName ∧
    if 0 < w.totalShards ∧ w.gang = true then
      ∃ shard ∈ r.shard, shard.shardIndex = w.shardIndex ∧
        tr.getOrCreateGang row.key.parentId shard.gang = some shard.gang ∧
        cfg.desired shard.gang = w.totalShards.toNat + 1
    else r.shard = none

instance (tr : TaskTracker cfg) (row : Task) (w : Workload) (x : SessionPtr) :
    Decidable (tr.Requests row w x) := by
  unfold Requests
  infer_instance

def withGang (tr : TaskTracker cfg) (k : TaskKey) (x : SessionPtr) : List (List Name × GangPtr) :=
  match (cfg.request x).shard with
  | some shard => (k.parentId, shard.gang) :: tr.gangs
  | none => tr.gangs

/-- The session of a task is registered and scheduled; for a job that is cancelled it is
scheduled under a cancelled context, and nothing is registered. -/
def launch (tr : TaskTracker cfg) (k : TaskKey) (x : SessionPtr) (c : Callback) : TaskTracker cfg :=
  let tr := { tr with gangs := tr.withGang k x }
  match tr.registerSession k x with
  | some tr => { tr with goroutines := tr.goroutines ++ [⟨x, .server, true, none⟩] }
  | none =>
    { tr with
      broker := { tr.broker with cancelledCtx := c.ctx :: tr.broker.cancelledCtx }
      goroutines := tr.goroutines ++ [⟨x, .caller c.ctx, false, none⟩] }

/-- The callback of `PollTasks` for the first row of the batch, with `x` as the session when
one is made. -/
def process (tr : TaskTracker cfg) (setup : Setup) (x : SessionPtr) (c : Callback) :
    Option (TaskTracker cfg) :=
  match tr.batch with
  | [] => none
  | row :: rest =>
    let tr := { tr with batch := rest }
    let w := setup.unmarshal row.payload
    if w.toShard then tr.shards setup row w c
    else if tr.getPool setup row.pool = false then some tr
    else
      let tr := { tr with pools := tr.pools.insert row.pool }
      if tr.inUse row.instanceId w.serviceName then some tr
      else if tr.Requests row w x then
        (Broker.step tr.broker (.addSession x)).map fun t =>
          ({ tr with broker := t } : TaskTracker cfg).launch row.key x c
      else none

/-- `Schedule` returns at once when the session runs, waits for its gang or has ended. -/
def returns (tr : TaskTracker cfg) (x : SessionPtr) : Bool :=
  match (tr.broker.sessions x).status with
  | .running | .waitingForOtherShards | .terminated | .cancelled => true
  | _ => false

def finish (tr : TaskTracker cfg) (i : Nat) (g : Goroutine) (failed : Bool) (o : Answer) :
    Option (TaskTracker cfg) :=
  let tr := { tr with goroutines := tr.goroutines.eraseIdx i }
  match task cfg g.session with
  | some k =>
    if g.reports ∧ failed then
      (write tr.store k cancelledResult o).map fun s => { tr with store := s }
    else some tr
  | none => some tr

/-- A turn of goroutine `i` in `Schedule`, or its end because the context is done. -/
def goroutine (tr : TaskTracker cfg) (i : Nat) (ctxDone : Bool) (o : Answer) :
    Option (TaskTracker cfg) :=
  match tr.goroutines[i]? with
  | none => none
  | some g =>
    if ctxDone then
      if g.generation.isSome ∧ tr.broker.ctxDone g.ctx = true then tr.finish i g true o else none
    else if g.generation.any fun n => (tr.broker.sessions g.session).loops.any (·.generation = n) then
      none
    else if tr.returns g.session then
      tr.finish i g (tr.broker.sessions g.session).schedulingErr.isSome o
    else
      (Broker.step tr.broker (.schedule g.session g.ctx)).map fun t =>
        { tr with
          broker := t
          goroutines := tr.goroutines.set i
            { g with generation := some (t.sessions g.session).generation } }

/-- `TaskTracker.ReconnectTask` for a session that an agent has reported. -/
def reconnectTask (tr : TaskTracker cfg) (setup : Setup) (x : SessionPtr) (o : Answer) :
    Option (TaskTracker cfg) :=
  match task cfg x with
  | none => some tr
  | some k =>
    match if o.fails then none else TaskStore.reconnectTask tr.store k setup.identity with
    | none => some tr
    | some s =>
      match ({ tr with store := s } : TaskTracker cfg).registerSession k x with
      | some tr => some tr
      | none => ({ tr with store := s } : TaskTracker cfg).turn (.kill x true) []

/-- `CancelJob` of the tracker; the kills of the sessions of the job are steps of their own. -/
def cancelJob (tr : TaskTracker cfg) (setup : Setup) (jobId : Name) : TaskTracker cfg :=
  let now := tr.broker.now
  let cancelled := (jobId, now) :: tr.cancelled.filter (·.1 ≠ jobId)
  if cancelled.length > cleanupMaxCancelledJobs ∨
      now - tr.lastCleanup > setup.cleanupMinimumInterval then
    { tr with
      cancelled := cancelled.filter fun c => now - c.2 < setup.cleanupAfterCancel
      lastCleanup := now }
  else { tr with cancelled := cancelled }

def expired (tr : TaskTracker cfg) (lastLeaseTime : Nat) : List String :=
  (tr.leasers.filter (·.2 < lastLeaseTime)).map (·.1)

def releaseExpiredLeaser (tr : TaskTracker cfg) (lastLeaseTime : Nat) : TaskTracker cfg :=
  { tr with
    store := releaseLeases tr.store (tr.expired lastLeaseTime)
    leasers := tr.leasers.filter fun l => ¬ l.2 < lastLeaseTime }

end TaskTracker

inductive Action
  /-- A turn of the broker that makes no session for a task. -/
  | broker (act : Broker.Action) (os : List Answer)
  | create (r : TaskStore.SessionRequest) (now : Nat)
  | poll
  | process (x : SessionPtr) (c : Callback)
  | goroutine (i : Nat) (ctxDone : Bool) (o : Answer)
  /-- An entry of `CurrentExecutions` of an agent that connects. -/
  | register (a : AgentPtr) (x : SessionPtr) (o : Answer)
  | cancelRows (jobId : Name) (now : Nat)
  | cancelJob (jobId : Name)
  | renewLeaser (identity : String) (now : Nat)
  | releaseExpiredLeaser (lastLeaseTime : Nat)
  | addPool (name : String)
  /-- A call that another broker makes for the tasks it has leased, or polls. -/
  | elsewhere (op : JobOp)

/-- The calls of a broker with another identity. -/
def foreign (identity : String) (s : Store) : JobOp → Bool
  | .store (.poll other) => other ≠ identity
  | .store (.report k _ _) => ((s.find k).bind (·.leaseBy)) ≠ some identity
  | .reconnect _ other => other ≠ identity
  | _ => false

def ownTurn (cfg : Config) : Broker.Action → Bool
  | .addSession x => task cfg x = none
  | .register _ _ => false
  | _ => true

def step (setup : Setup) (tr : TaskTracker cfg) : Action → Option (TaskTracker cfg)
  | .broker act os => if ownTurn cfg act then tr.turn act os else none
  | .create r now => (createTask tr.store r now).map fun made => { tr with store := made.1 }
  | .poll => tr.poll setup.identity
  | .process x c => tr.process setup x c
  | .goroutine i ctxDone o => tr.goroutine i ctxDone o
  | .register a x o => (tr.turn (.register a x) []).bind fun tr => tr.reconnectTask setup x o
  | .cancelRows jobId now => some { tr with store := TaskStore.cancelJob tr.store jobId now }
  | .cancelJob jobId => some (tr.cancelJob setup jobId)
  | .renewLeaser identity now =>
    some { tr with leasers := (identity, now) :: tr.leasers.filter (·.1 ≠ identity) }
  | .releaseExpiredLeaser lastLeaseTime => some (tr.releaseExpiredLeaser lastLeaseTime)
  | .addPool name => some { tr with pools := tr.pools.insert name }
  | .elsewhere op =>
    if foreign setup.identity tr.store op then
      (jobStep tr.store op).map fun s => { tr with store := s }
    else none

def Unblocked (setup : Setup) (tr : TaskTracker cfg) (act : Action) : Prop :=
  ∀ u ∈ step setup tr act, u.broker.Buffered

instance (setup : Setup) (tr : TaskTracker cfg) (act : Action) : Decidable (Unblocked setup tr act) :=
  inferInstanceAs (Decidable (∀ u ∈ step setup tr act, u.broker.Buffered))

end Velda.Tracker
