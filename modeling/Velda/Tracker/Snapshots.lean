import Velda.Jobs.Requests
import Velda.TaskStore.Ended
import Velda.Tracker.Steps

/-! The snapshots of jobs. `RequestSession` makes one for a request that needs it and stores its
name with the task, `PollTasks` gives the name to the sessions of the job, and the completion
of the session of the root task starts a timer that deletes it. The delay of the timer is
any number of steps. There is a storage. -/
namespace Velda.Tracker
open Lib Broker TaskStore

/-- What stored workloads and the requests of sessions say of snapshots. -/
structure Mounts where
  workload : List UInt8 → Jobs.Workload
  snapshotName : SessionPtr → Posix.Name

/-- A snapshot is named within its instance. -/
abbrev Snapshot := Int × Posix.Name

/-- The tracker, the snapshots that `RequestSession` has made, the sessions whose timer is
running, and the snapshots that timers have deleted. -/
structure Snapshots (cfg : Config) where
  tracker : TaskTracker cfg
  created : List Snapshot
  timers : List SessionPtr
  deleted : List Snapshot

variable {cfg : Config}

namespace Snapshots

def init : Snapshots cfg := ⟨.init, [], [], []⟩

end Snapshots

def snapshot (m : Mounts) (cfg : Config) (x : SessionPtr) : Snapshot :=
  ((cfg.request x).key.instanceId, m.snapshotName x)

def isRoot (cfg : Config) (x : SessionPtr) : Bool := (task cfg x).any (·.parentId = [])

/-- The session whose completion starts a timer, if the event is one. -/
def TaskTracker.deletes (tr : TaskTracker cfg) (m : Mounts) : Event → Option SessionPtr
  | .recordExecution x final =>
    if final ≠ .checkpointed ∧ (tr.home x).isSome ∧ isRoot cfg x ∧ m.snapshotName x ≠ [] then some x
    else none
  | _ => none

/-- The name that `PollTasks` gives to the session for a row. `found` is whether `GetTask` finds
the root of the job, when that is another row. -/
def polledName (m : Mounts) (s : Store) (row : Task) (found : Bool) : Posix.Name :=
  if row.key.parentId = [] then (m.workload row.payload).snapshotName
  else if found then
    ((s.find ⟨[], row.key.jobId⟩).map fun root => (m.workload root.payload).snapshotName).getD []
  else []

def segments (k : TaskKey) : List Posix.Name := k.childrenId.reverse.map String.toList

def taskText (k : TaskKey) : Posix.Name := ['/'].intercalate (segments k)

lemma polledName_eq (m : Mounts) (s : Store) (row : Task) (found : Bool)
    (slashless : ∀ n ∈ segments row.key, '/' ∉ n) : polledName m s row found =
      (Jobs.pollRequest ⟨taskText row.key, row.instanceId, m.workload row.payload⟩
        (if found then (s.find ⟨[], row.key.jobId⟩).map fun root => some (m.workload root.payload)
        else none)).snapshotName := by
  have split : (taskText row.key).splitOn '/' = segments row.key :=
    List.splitOn_intercalate _ slashless (by simp [segments, TaskKey.childrenId])
  have root : Jobs.rootTaskId (taskText row.key) = taskText row.key ↔ row.key.parentId = [] := by
    rw [Jobs.rootTaskId, split]
    constructor
    · intro same
      have mem : taskText row.key ∈ segments row.key := by
        rw [← same]
        cases listed : segments row.key with
        | nil => simp [segments, TaskKey.childrenId] at listed
        | cons first rest => simp
      -- An id without a slash is a single segment.
      rw [List.splitOn_eq_singleton (slashless _ mem)] at split
      simpa [segments, TaskKey.childrenId] using congrArg List.length split
    · intro top
      simp [taskText, segments, TaskKey.childrenId, top]
  unfold polledName Jobs.pollRequest
  by_cases top : row.key.parentId = []
  · simp [root, top]
  · simp only [root, top, ne_eq]
    cases found with
    | false => simp
    | true => cases s.find ⟨[], row.key.jobId⟩ <;> simp

/-- The names of the request that a step makes a session for are those of `PollTasks`. -/
def Polled (m : Mounts) (tr u : TaskTracker cfg) (found : Bool) : Action → Prop
  | .process x _ => x ∉ tr.broker.created → x ∈ u.broker.created →
      ∀ row ∈ tr.batch.head?, m.snapshotName x = polledName m tr.store row found
  | _ => True

instance (m : Mounts) (tr u : TaskTracker cfg) (found : Bool) (act : Action) :
    Decidable (Polled m tr u found act) := by
  induction act using Action.casesOn <;> unfold Polled <;> infer_instance

/-- The calls of `RequestSession` are actions of their own. -/
def inner : Action → Bool
  | .create .. => false
  | .broker (.addSession _) _ => false
  | _ => true

inductive SnapshotAction
  /-- `RequestSession` with a workload, up to the creation of its task, which may fail. -/
  | submit (inBatch : Bool) (req : Jobs.SessionRequest) (calls : Jobs.Calls)
      (r : TaskStore.SessionRequest) (now : Nat) (fails : Bool)
  /-- `RequestSession` without one, and the session when a new one is made. -/
  | interactive (inBatch : Bool) (req : Jobs.SessionRequest) (calls : Jobs.Calls)
      (x : Option SessionPtr)
  | tracker (act : Action) (found : Bool)
  /-- The function of a timer, and whether `DeleteSnapshot` fails. -/
  | fire (i : Nat) (fails : Bool)

def made (inBatch : Bool) (req : Jobs.SessionRequest) (calls : Jobs.Calls) : List Snapshot :=
  if req.snapshotName = [] ∧ req.Makes inBatch calls then [(req.instanceId, req.newSnapshot calls)]
  else []

def Stores (m : Mounts) (inBatch : Bool) (req : Jobs.SessionRequest) (calls : Jobs.Calls)
    (r : TaskStore.SessionRequest) : Prop :=
  req.workload ≠ none ∧ r.instanceId = req.instanceId ∧
    m.workload r.workload =
      ⟨req.writableDirs, (req.withSnapshot inBatch calls).snapshotName⟩ ∧
    if inBatch then r.taskId.parentId ≠ []
    else r.taskId = ⟨[], String.ofList calls.jobId⟩

instance (m : Mounts) (inBatch : Bool) (req : Jobs.SessionRequest) (calls : Jobs.Calls)
    (r : TaskStore.SessionRequest) : Decidable (Stores m inBatch req calls r) :=
  inferInstanceAs (Decidable (_ ∧ _ ∧ _ ∧ _))

def Snapshots.step (m : Mounts) (setup : Setup) (s : Snapshots cfg) :
    SnapshotAction → Option (Snapshots cfg)
  | .submit inBatch req calls r now fails =>
    if Stores m inBatch req calls r then
      let s := { s with created := made inBatch req calls ++ s.created }
      if fails then some s
      else (Tracker.step setup s.tracker (.create r now)).map fun u => { s with tracker := u }
    else none
  | .interactive inBatch req calls x =>
    if req.workload = none then
      let s := { s with created := made inBatch req calls ++ s.created }
      match x with
      | none => some s
      | some x =>
        if snapshot m cfg x = (req.instanceId, (req.withSnapshot inBatch calls).snapshotName) then
          (Tracker.step setup s.tracker (.broker (.addSession x) [])).map fun u =>
            { s with tracker := u }
        else none
    else none
  | .tracker act found =>
    if inner act then
      (Tracker.step setup s.tracker act).bind fun u =>
        if Polled m s.tracker u found act then
          some { s with
            tracker := u
            timers := s.timers ++
              (s.tracker.broker.news u.broker).filterMap (s.tracker.deletes m) }
        else none
    else none
  | .fire i fails =>
    s.timers[i]?.map fun x => { s with
      timers := s.timers.eraseIdx i
      deleted := if fails then s.deleted else snapshot m cfg x :: s.deleted }

namespace Snapshots

def moved (s : Snapshots cfg) (m : Mounts) (u : TaskTracker cfg) : Snapshots cfg :=
  { s with
    tracker := u
    timers := s.timers ++ (s.tracker.broker.news u.broker).filterMap (s.tracker.deletes m) }

inductive Stepped (m : Mounts) (setup : Setup) (s : Snapshots cfg) :
    SnapshotAction → Snapshots cfg → Prop
  | failed {inBatch : Bool} {req : Jobs.SessionRequest} {calls : Jobs.Calls}
      {r : TaskStore.SessionRequest} {now : Nat} : Stores m inBatch req calls r →
      Stepped m setup s (.submit inBatch req calls r now true)
        { s with created := made inBatch req calls ++ s.created }
  | submitted {inBatch : Bool} {req : Jobs.SessionRequest} {calls : Jobs.Calls}
      {r : TaskStore.SessionRequest} {now : Nat} {st : Store} {key : TaskKey} {count : Int} :
      Stores m inBatch req calls r → createTask s.tracker.store r now = some (st, key, count) →
      Stepped m setup s (.submit inBatch req calls r now false)
        { s with
          created := made inBatch req calls ++ s.created
          tracker := { s.tracker with store := st } }
  | answered {inBatch : Bool} {req : Jobs.SessionRequest} {calls : Jobs.Calls} :
      req.workload = none →
      Stepped m setup s (.interactive inBatch req calls none)
        { s with created := made inBatch req calls ++ s.created }
  | opened {inBatch : Bool} {req : Jobs.SessionRequest} {calls : Jobs.Calls} {x : SessionPtr}
      {t : State cfg} : req.workload = none → task cfg x = none →
      Broker.step s.tracker.broker (.addSession x) = some t →
      Stepped m setup s (.interactive inBatch req calls (some x))
        { s with
          created := made inBatch req calls ++ s.created
          tracker := { s.tracker with broker := t } }
  | tracked {act : Action} {found : Bool} {u : TaskTracker cfg} : inner act = true →
      Tracker.step setup s.tracker act = some u → Polled m s.tracker u found act →
      Stepped m setup s (.tracker act found) (s.moved m u)
  | fired {i : Nat} {x : SessionPtr} {fails : Bool} : s.timers[i]? = some x →
      Stepped m setup s (.fire i fails)
        { s with
          timers := s.timers.eraseIdx i
          deleted := if fails then s.deleted else snapshot m cfg x :: s.deleted }

lemma stepped (h : s.step m setup act = some t) : Stepped m setup s act t := by
  cases act with
  | submit inBatch req calls r now fails =>
    simp only [step] at h
    split at h
    · next stores =>
      cases fails with
      | true =>
        cases h
        exact .failed stores
      | false =>
        obtain ⟨u, taken, rfl⟩ := Option.map_eq_some_iff.mp h
        obtain ⟨⟨st, key, count⟩, created, rfl⟩ := Option.map_eq_some_iff.mp taken
        exact .submitted stores created
    · cases h
  | interactive inBatch req calls x =>
    simp only [step] at h
    split at h
    · next none =>
      cases x with
      | none =>
        cases h
        exact .answered none
      | some x =>
        dsimp only at h
        split at h
        · obtain ⟨u, turned, rfl⟩ := Option.map_eq_some_iff.mp h
          simp only [Tracker.step] at turned
          split at turned
          · next own =>
            obtain ⟨t, taken, -, -⟩ := TaskTracker.turn_cases turned
            have same := (TaskTracker.turn_eq taken (.inl ⟨x, rfl⟩)).1
            rw [turned] at same
            cases same
            exact .opened none (by simpa [ownTurn] using own) taken
          · cases turned
        · cases h
    · cases h
  | tracker act found =>
    simp only [step] at h
    split at h
    · next inside =>
      obtain ⟨u, taken, rest⟩ := Option.bind_eq_some_iff.mp h
      split at rest
      · next polled =>
        cases rest
        exact .tracked inside taken polled
      · cases rest
    · cases h
  | fire i fails =>
    obtain ⟨x, found, rfl⟩ := Option.map_eq_some_iff.mp h
    exact .fired found

end Snapshots

end Velda.Tracker
