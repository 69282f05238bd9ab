import Mathlib
import Velda.Lib.RecursiveQuery
import Velda.TaskStore.Schema

/-! Operations of `pkg/db/sqlite/db.go` on the tables. A call that returns an error
is `none`; its transaction is rolled back. The recursive query is given as many
rounds as there are dependency rows and one more, and is `none` when rows are
still being produced after that, which is when the query itself does not end. -/
namespace Velda.TaskStore

inductive DependencyType
  | unspecified | success | failure
  deriving DecidableEq

def DependencyType.trigger : DependencyType → Trigger
  | .success => .success
  | .failure => .failure
  | .unspecified => .any

structure SessionRequest where
  taskId : TaskKey
  dependencies : List (Name × DependencyType)
  pool : String := "default"
  instanceId : Int := 0
  priority : Int := 0
  labels : List String := []
  workload : List UInt8 := []
  deriving DecidableEq

def SessionRequest.dependencyRows (r : SessionRequest) : List Dependency :=
  r.dependencies.map fun d => ⟨r.taskId, ⟨r.taskId.parentId, d.1⟩, d.2.trigger⟩

/-- `none` is the error "already failed"; the rows inserted before it stay. -/
def addDownstreams (s : Store) : List Dependency → Nat → Store × Option Nat
  | [], triggerMet => (s, some triggerMet)
  | d :: rest, triggerMet =>
    let s := { s with deps := s.deps ++ [d] }
    match s.statusOf d.upstream with
    | some .completed =>
      if d.trigger = .failure then (s, none) else addDownstreams s rest (triggerMet + 1)
    | some .failed | some .failedUpstream =>
      if d.trigger = .success then (s, none) else addDownstreams s rest (triggerMet + 1)
    | _ => addDownstreams s rest triggerMet

/-- The insertion loop: the requested name, then `name_2`, `name_3` and so on. -/
def chooseTaskId (taken : Name → Bool) (taskIdPrefix : Name) :
    (rounds nextIndex : Nat) → Name → Option Name
  | 0, _, _ => none
  | rounds + 1, nextIndex, taskId =>
    if taken taskId then
      chooseTaskId taken taskIdPrefix rounds (nextIndex + 1)
        (taskIdPrefix ++ "_" ++ toString nextIndex)
    else some taskId

def SessionRequest.row (session : SessionRequest) (name : Name) (status : Status)
    (upstreamCnt : Int) (now : Time) : Task where
  key := ⟨session.taskId.parentId, name⟩
  pool := session.pool
  instanceId := session.instanceId
  priority := session.priority
  payload := session.workload
  labels := ",".intercalate session.labels
  status := status
  pendingUpstreams := upstreamCnt
  createTime := now
  leaseBy := none
  totalChildren := none
  completedChildren := 0
  startTime := none
  finishTime := none
  resolveTime := none
  result := none

def createTask (s : Store) (session : SessionRequest) (now : Time) :
    Option (Store × TaskKey × Int) :=
  let (s, met) := addDownstreams s session.dependencyRows 0
  let status := if met.isSome then Status.queueing else .failedUpstream
  let upstreamCnt : Int := session.dependencies.length - met.getD 0
  let taken name := s.tasks.any (·.key = ⟨session.taskId.parentId, name⟩)
  (chooseTaskId taken session.taskId.taskId (s.tasks.length + 1) 2 session.taskId.taskId).map
    fun name =>
      ({ s with
          tasks := s.tasks ++ [session.row name status upstreamCnt now]
          pollReady := s.pollReady || (status = .queueing && upstreamCnt = 0) },
        ⟨session.taskId.parentId, name⟩, upstreamCnt)

inductive Outcome
  | success | fail | failUpstream | met
  deriving DecidableEq

structure UpdateRow where
  key : TaskKey
  outcome : Outcome
  deriving DecidableEq

def edgeOutcome (upstream : Outcome) (trigger : Trigger) : Outcome :=
  if (upstream = .fail ∨ upstream = .failUpstream) ∧ trigger = .success then .failUpstream
  else if upstream = .success ∧ trigger = .failure then .failUpstream
  else .met

def Store.isOpen (s : Store) (k : TaskKey) : Bool :=
  match s.statusOf k with
  | some status => status.open
  | none => false

/-- The recursive case of the query, for one row already produced. -/
def Store.downstreamRows (s : Store) (upstream : UpdateRow) : List UpdateRow :=
  (s.deps.filter fun d =>
    d.upstream = upstream.key ∧ s.isOpen d.downstream ∧ upstream.outcome ≠ .met).map
    fun d => ⟨d.downstream, edgeOutcome upstream.outcome d.trigger⟩

def Store.downstreamUpdates (s : Store) (base : TaskKey) (outcome : Outcome) :
    Option (List UpdateRow) :=
  Lib.recursiveQuery s.downstreamRows (s.deps.length + 1) [⟨base, outcome⟩]

/-- The first outcome of a task in `downstream_updates` that is not `met`. -/
def firstOutcome (rows : List UpdateRow) (k : TaskKey) : Option Outcome :=
  (rows.find? fun r => r.key = k ∧ r.outcome ≠ .met).map (·.outcome)

def upstreamMet (rows : List UpdateRow) (k : TaskKey) : Nat :=
  rows.countP fun r => r.key = k ∧ (r.outcome = .met ∨ r.outcome = .failUpstream)

def Outcome.status (current : Status) : Option Outcome → Status
  | some .success => .completed
  | some .fail => .failed
  | some .failUpstream => .failedUpstream
  | _ => current

def touched (rows : List UpdateRow) (t : Task) : Bool := rows.any (·.key = t.key)

def applyRows (rows : List UpdateRow) (now : Time) (t : Task) : Task :=
  if touched rows t then
    { t with
      status := Outcome.status t.status (firstOutcome rows t.key)
      pendingUpstreams := t.pendingUpstreams - upstreamMet rows t.key
      resolveTime := if (firstOutcome rows t.key).isSome then some (t.resolveTime.getD now)
        else t.resolveTime }
  else t

/-- One statement of the loop of `updateTaskStatus`, with the number of rows resolved by it. -/
def Store.propagate (s : Store) (base : TaskKey) (outcome : Outcome) (now : Time) :
    Option (Store × Nat) :=
  (s.downstreamUpdates base outcome).map fun rows =>
    let returned := (s.tasks.filter (touched rows)).map (applyRows rows now)
    let resolved := returned.filter (·.resolveTime = some now)
    ({ s with
        tasks := s.tasks.map (applyRows rows now)
        pollReady := s.pollReady ||
          returned.any fun t => t.status = .queueing && t.pendingUpstreams = 0
        announced := s.announced ++
          resolved.map fun t => (t.key, statusStrToProto t.status t.pendingUpstreams) },
      resolved.length)

def Store.children (s : Store) (k : TaskKey) : List Task :=
  s.tasks.filter (·.key.parentId = k.childrenId)

def Store.childrenOutcome (s : Store) (k : TaskKey) : Outcome :=
  if ((s.children k).filter (·.status ≠ .completed)).length = 0 then .success else .fail

/-- Count finished children in the parent's row; an outcome when that finishes the parent. -/
def Store.completeChildren (s : Store) (parent : TaskKey) (resolved : Nat) :
    Store × Option Outcome :=
  match s.find parent with
  | none => (s, none)
  | some row =>
    let completed := row.completedChildren + resolved
    let s := s.update parent fun t => { t with completedChildren := completed }
    match row.status, row.totalChildren with
    | .runningSubtasks, some total =>
      if completed ≥ total then (s, some (s.childrenOutcome parent)) else (s, none)
    | _, _ => (s, none)

def updateTaskStatus : (parentId : List Name) → Store → (clock : Nat → Time) → Name → Outcome →
    Option Store
  | [], s, clock, taskId, outcome => (s.propagate ⟨[], taskId⟩ outcome (clock 0)).map (·.1)
  | p :: grand, s, clock, taskId, outcome =>
    (s.propagate ⟨p :: grand, taskId⟩ outcome (clock 0)).bind fun (s, resolved) =>
      if p :: grand = [""] then some s
      else
        match s.completeChildren ⟨grand, p⟩ resolved with
        | (s, none) => some s
        | (s, some outcome) => updateTaskStatus grand s (fun i => clock (i + 1)) p outcome

structure FinalResult where
  payload : BatchTaskResult
  startTime : Time := 0
  cancelled : Bool := false
  deriving DecidableEq

def BatchTaskResult.outcome (r : BatchTaskResult) : Outcome :=
  if r.terminatedSignal ≠ 0 ∨ r.exitCode ≠ some 0 then .fail else .success

def Store.recordResult (s : Store) (k : TaskKey) (result : FinalResult) (now : Time) : Store :=
  s.update k fun t =>
    { t with
      totalChildren := some (s.children k).length
      status := if (s.children k).length > t.completedChildren then .runningSubtasks else t.status
      startTime := some result.startTime
      finishTime := some now
      result := some result.payload }

def updateTaskFinalResult (s : Store) (k : TaskKey) (result : FinalResult)
    (clock : Nat → Time) : Option Store :=
  if result.cancelled then
    some (s.update k fun t =>
      if t.status = .leased then { t with status := .cancelled, finishTime := some (clock 0) }
      else t)
  else
    match s.find k with
    | none => none
    | some row =>
      let recorded := s.recordResult k result (clock 0)
      if (s.children k).length > row.completedChildren then
        some { recorded with announced := recorded.announced ++ [(k, .runningSubtasks)] }
      else
        updateTaskStatus k.parentId recorded (fun i => clock (i + 1)) k.taskId
          result.payload.outcome

def leaseOrder (a b : Task) : Prop :=
  b.priority < a.priority ∨ (a.priority = b.priority ∧ a.createTime ≤ b.createTime)

instance : DecidableRel leaseOrder := fun _ _ => inferInstanceAs (Decidable (_ ∨ _))

def Store.availableTasks (s : Store) : List Task :=
  ((s.tasks.filter fun t => t.status = .queueing ∧ t.pendingUpstreams = 0).insertionSort
    leaseOrder).take 10

/-- Lease up to ten ready tasks; the second component is what the statement returns. -/
def pollTasksOnce (s : Store) (leaserIdentity : String) : Store × List Task :=
  let lease (t : Task) : Task := { t with status := .leased, leaseBy := some leaserIdentity }
  let chosen (t : Task) : Bool := s.availableTasks.any (·.key = t.key)
  ({ s with tasks := s.tasks.map fun t => if chosen t then lease t else t },
    (s.tasks.filter chosen).map lease)

def reconnectTask (s : Store) (k : TaskKey) (leaserIdentity : String) : Option Store :=
  if s.statusOf k = some .leased then
    some (s.update k fun t => { t with leaseBy := some leaserIdentity })
  else none

/-- The update of `ReleaseExpiredLeaser`, for the leasers whose heartbeat is too old. -/
def releaseLeases (s : Store) (expired : List String) : Store :=
  let releases (t : Task) : Bool := t.status = .leased && t.leaseBy.any (· ∈ expired)
  { s with
    tasks := s.tasks.map fun t =>
      if releases t then { t with status := .queueing, leaseBy := none } else t
    pollReady := s.pollReady || s.tasks.any releases }

/-- A leased task is cancelled through its session, not by `CancelJob`. -/
def Status.cancellable : Status → Bool
  | .queueing | .runningSubtasks => true
  | _ => false

def cancelJob (s : Store) (jobId : Name) (now : Time) : Store :=
  let cancels (t : Task) : Bool := t.key.jobId = jobId && t.status.cancellable
  { s with
    tasks := s.tasks.map fun t =>
      if cancels t then { t with status := .cancelled, resolveTime := some now } else t
    announced := s.announced ++
      (s.tasks.filter cancels).map fun t => (t.key, statusStrToProto .cancelled 0) }

end Velda.TaskStore
