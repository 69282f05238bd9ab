import Velda.Posix.Tree

/-! The snapshot and the writable directories of a session: what `RequestSession` of `broker.go`
makes of a request, what it stores in the root task of a job, and what `PollTasks` of
`task_tracker.go` puts into the request of each task of the job. -/
namespace Velda.Jobs
open Posix

structure Workload where
  writableDirs : List Name := []
  snapshotName : Name := []
  deriving DecidableEq

structure SessionRequest where
  instanceId : Int
  taskId : Name := []
  writableDirs : List Name := []
  snapshotName : Name := []
  workload : Option Workload := none
  deriving DecidableEq

structure Task where
  id : Name
  instanceId : Int
  workload : Workload
  deriving DecidableEq

/-- What a request meets: whether there is a storage, whether `CreateSnapshot` succeeds, and the
two new identifiers. -/
structure Calls where
  storage : Bool := true
  createSnapshot : Bool := true
  snapshotId : Name
  jobId : Name
  slashless : '/' ∉ jobId

namespace SessionRequest

def newSnapshot (req : SessionRequest) (calls : Calls) : Name :=
  if req.taskId = [] then "snapshot-".toList ++ calls.snapshotId else req.taskId

local instance : LawfulBEq Name := inferInstance

/-- The part of `RequestSession` that makes a snapshot for a job; a failure is only logged. -/
def withSnapshot (req : SessionRequest) (inBatch : Bool) (calls : Calls) : SessionRequest :=
  if !inBatch && (req.writableDirs ≠ [] || req.snapshotName ≠ []) then
    let hasRoot := ['/'] ∈ req.writableDirs
    if !hasRoot && calls.storage && req.snapshotName = [] then
      if calls.createSnapshot then { req with snapshotName := req.newSnapshot calls } else req
    else req
  else req

def rootTask (req : SessionRequest) (calls : Calls) : Task :=
  let req := req.withSnapshot false calls
  ⟨calls.jobId, req.instanceId, ⟨req.writableDirs, req.snapshotName⟩⟩

end SessionRequest

/-- `strings.Split(id, "/")[0]`. -/
def rootTaskId (id : Name) : Name := (id.splitOn '/').headD []

/-- The request that `PollTasks` makes for a task. `root` is what `GetTask` says of the root of its
job: nothing where it fails, and then the workload, if there is one. -/
def pollRequest (task : Task) (root : Option (Option Workload)) : SessionRequest :=
  let req : SessionRequest :=
    { instanceId := task.instanceId, taskId := task.id, workload := some task.workload }
  if rootTaskId task.id ≠ task.id then
    match root with
    | some (some w) =>
      { req with
        writableDirs := w.writableDirs, snapshotName := w.snapshotName, workload := some w }
    | _ => req
  else
    { req with
      writableDirs := task.workload.writableDirs
      snapshotName := task.workload.snapshotName }

/-- How a session comes from a request: at once, as the root task of a job, or as another task of
the job, whose root `GetTask` finds or does not. -/
inductive Route
  | interactive
  | root
  | child (task : Task) (found : Bool)
  deriving DecidableEq

/-- The route copies the names of the request. -/
def Route.copies : Route → Bool
  | .interactive | .root => true
  | .child _ found => found

def Route.request (req : SessionRequest) (inBatch : Bool) (calls : Calls) :
    Route → Option SessionRequest
  | .interactive => if req.workload = none then some (req.withSnapshot inBatch calls) else none
  | .root =>
    if req.workload = none ∨ inBatch then none else some (pollRequest (req.rootTask calls) none)
  | .child task found =>
    if req.workload = none ∨ inBatch ∨ rootTaskId task.id ≠ calls.jobId ∨ task.id = calls.jobId then
      none
    else
      some (pollRequest task
        (if found then some (some (req.rootTask calls).workload) else none))

lemma rootTaskId_of_slashless {id : Name} (slashless : '/' ∉ id) : rootTaskId id = id := by
  rw [rootTaskId, List.splitOn_eq_singleton slashless]
  rfl

section
variable {req r : SessionRequest} {inBatch : Bool} {calls : Calls} {route : Route}

@[simp] lemma withSnapshot_writableDirs :
    (req.withSnapshot inBatch calls).writableDirs = req.writableDirs := by
  unfold SessionRequest.withSnapshot
  split
  · simp only
    split
    · split <;> rfl
    · rfl
  · rfl

lemma Route.request_eq (h : route.request req inBatch calls = some r) :
    r.writableDirs = (if route.copies then req.writableDirs else []) ∧ r.snapshotName =
        if route.copies then (req.withSnapshot inBatch calls).snapshotName else [] := by
  cases route with
  | interactive =>
    simp only [Route.request] at h
    split at h <;> cases h
    exact ⟨withSnapshot_writableDirs, rfl⟩
  | root =>
    simp only [Route.request] at h
    split at h
    · cases h
    · next batch =>
      cases h
      have top : inBatch = false := by simpa using (not_or.mp batch).2
      have own : rootTaskId (req.rootTask calls).id = (req.rootTask calls).id :=
        rootTaskId_of_slashless calls.slashless
      unfold pollRequest
      simp only [own, ne_eq, top]
      exact ⟨withSnapshot_writableDirs, rfl⟩
  | child task found =>
    simp only [Route.request] at h
    split at h
    · cases h
    · next batch =>
      cases h
      obtain ⟨-, top, job, other⟩ : _ ∧ ¬ inBatch = true ∧ ¬ rootTaskId task.id ≠ calls.jobId ∧
          ¬ task.id = calls.jobId := by simpa only [not_or] using batch
      have below : rootTaskId task.id ≠ task.id := fun same => other (same ▸ not_not.mp job)
      have top : inBatch = false := by simpa using top
      unfold pollRequest
      cases found with
      | true =>
        simp only [below, ne_eq, top]
        exact ⟨withSnapshot_writableDirs, rfl⟩
      | false => simp [below, Route.copies]

end

def SessionRequest.Makes (req : SessionRequest) (inBatch : Bool) (calls : Calls) : Prop :=
  inBatch = false ∧ req.writableDirs ≠ [] ∧ ['/'] ∉ req.writableDirs ∧ calls.storage = true ∧
    calls.createSnapshot = true

instance (req : SessionRequest) (inBatch : Bool) (calls : Calls) :
    Decidable (req.Makes inBatch calls) :=
  inferInstanceAs (Decidable (_ ∧ _ ∧ _ ∧ _ ∧ _))

def SessionRequest.Supplies (req : SessionRequest) (inBatch : Bool) (calls : Calls) (name : Name) :
    Prop :=
  req.snapshotName = name ∧ name ≠ [] ∨
    req.snapshotName = [] ∧ req.Makes inBatch calls ∧ name = req.newSnapshot calls

lemma newSnapshot_ne_nil (req : SessionRequest) (calls : Calls) : req.newSnapshot calls ≠ [] := by
  unfold SessionRequest.newSnapshot
  split
  · simp
  · assumption

lemma withSnapshot_snapshotName (req : SessionRequest) (inBatch : Bool) (calls : Calls) :
    (req.withSnapshot inBatch calls).snapshotName =
      if req.snapshotName = [] ∧ req.Makes inBatch calls then req.newSnapshot calls
      else req.snapshotName := by
  by_cases given : req.snapshotName = []
  · by_cases made : req.Makes inBatch calls
    · rw [if_pos ⟨given, made⟩]
      obtain ⟨top, dirs, root, storage, creates⟩ := made
      simp [SessionRequest.withSnapshot, given, top, dirs, root, storage, creates]
    · rw [if_neg fun both => made both.2]
      unfold SessionRequest.withSnapshot
      split
      · next starts =>
        simp only
        split
        · next within =>
          split
          · next creates =>
            simp [given] at starts within
            exact absurd ⟨starts.1, starts.2, within.1, within.2, creates⟩ made
          · rfl
        · rfl
      · rfl
  · simp [SessionRequest.withSnapshot, given]

lemma supplies_iff {req : SessionRequest} {calls : Calls} {name : Name} :
    req.Supplies inBatch calls name ↔
      (req.withSnapshot inBatch calls).snapshotName = name ∧ name ≠ [] := by
  rw [withSnapshot_snapshotName, SessionRequest.Supplies]
  split
  · next made =>
    constructor
    · rintro (⟨given, some⟩ | ⟨-, -, rfl⟩)
      · exact absurd (given ▸ made.1) some
      · exact ⟨rfl, newSnapshot_ne_nil req calls⟩
    · rintro ⟨rfl, -⟩
      exact .inr ⟨made.1, made.2, rfl⟩
  · next not =>
    constructor
    · rintro (given | ⟨none, makes, -⟩)
      · exact given
      · exact absurd ⟨none, makes⟩ not
    · exact .inl

end Velda.Jobs
