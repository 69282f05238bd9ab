import Mathlib

/-! Tables of the SQLite task store. An id is the list of its slash-separated
segments, innermost first, so `path.Split` of `a/b/c` is `⟨["b", "a"], "c"⟩` and
the row of the parent of `⟨p :: grand, t⟩` is `⟨grand, p⟩`. Instants are ticks of
one clock. `payload` is the marshalled workload, which nothing here reads. -/
namespace Velda.TaskStore

abbrev Name := String
abbrev Time := Nat

structure TaskKey where
  parentId : List Name
  taskId : Name
  deriving DecidableEq

/-- The `parent_id` of the children of a task. -/
def TaskKey.childrenId (k : TaskKey) : List Name := k.taskId :: k.parentId

def TaskKey.jobId (k : TaskKey) : Name := k.parentId.getLast?.getD k.taskId

inductive Status
  | queueing | leased | runningSubtasks | completed | failed | failedUpstream | cancelled
  deriving DecidableEq

def Status.finished : Status → Bool
  | .completed | .failed | .failedUpstream => true
  | _ => false

def Status.terminal : Status → Bool
  | .completed | .failed | .failedUpstream | .cancelled => true
  | _ => false

/-- The statuses the recursive query of `updateTaskStatus` walks into. -/
def Status.open : Status → Bool
  | .queueing | .leased | .runningSubtasks => true
  | _ => false

inductive TaskStatus
  | unspecified | pending | queueing | running | runningSubtasks | success | failure
  | failedUpstream | cancelled
  deriving DecidableEq

def statusStrToProto : Status → Int → TaskStatus
  | .queueing, pendingUpstreams => if pendingUpstreams > 0 then .pending else .queueing
  | .leased, _ => .queueing
  | .runningSubtasks, _ => .runningSubtasks
  | .completed, _ => .success
  | .failed, _ => .failure
  | .failedUpstream, _ => .failedUpstream
  | .cancelled, _ => .cancelled

inductive Trigger
  | success | failure | any
  deriving DecidableEq

/-- Whether an upstream that finished with this status lets the dependency pass. -/
def Trigger.allows : Trigger → Status → Bool
  | .failure, .completed => false
  | .success, .failed => false
  | .success, .failedUpstream => false
  | _, _ => true

structure BatchTaskResult where
  exitCode : Option Int
  terminatedSignal : Int
  deriving DecidableEq

structure Task where
  key : TaskKey
  pool : String
  instanceId : Int
  priority : Int
  payload : List UInt8
  labels : String
  status : Status
  pendingUpstreams : Int
  createTime : Time
  leaseBy : Option String
  totalChildren : Option Nat
  completedChildren : Nat
  startTime : Option Time
  finishTime : Option Time
  resolveTime : Option Time
  result : Option BatchTaskResult
  deriving DecidableEq

structure Dependency where
  downstream : TaskKey
  upstream : TaskKey
  trigger : Trigger
  deriving DecidableEq

/-- The database with the pending poll notification and the status callbacks made so far. -/
structure Store where
  tasks : List Task
  deps : List Dependency
  pollReady : Bool
  announced : List (TaskKey × TaskStatus)
  deriving DecidableEq

def Store.empty : Store := ⟨[], [], false, []⟩

def Store.find (s : Store) (k : TaskKey) : Option Task := s.tasks.find? (·.key = k)

def Store.statusOf (s : Store) (k : TaskKey) : Option Status := (s.find k).map (·.status)

def Store.update (s : Store) (k : TaskKey) (f : Task → Task) : Store :=
  { s with tasks := s.tasks.map fun t => if t.key = k then f t else t }

/-- The upstream task does not exist, or has not finished. -/
def Store.unfinished (s : Store) (k : TaskKey) : Bool :=
  match s.statusOf k with
  | some status => !status.finished
  | none => true

def Store.dependenciesOf (s : Store) (k : TaskKey) : List Dependency :=
  s.deps.filter (·.downstream = k)

/-- `UNIQUE(parent_id, task_id)`. -/
def Store.UniqueKeys (s : Store) : Prop := (s.tasks.map (·.key)).Nodup

variable {s : Store} {t : Task} {k : TaskKey}

lemma find_key (h : s.find k = some t) : t.key = k := by
  simpa using List.find?_some h

lemma find_mem (h : s.find k = some t) : t ∈ s.tasks :=
  List.mem_of_find?_eq_some h

lemma find_of_mem (unique : s.UniqueKeys) (h : t ∈ s.tasks) : s.find t.key = some t := by
  unfold Store.find Store.UniqueKeys at *
  generalize s.tasks = rows at unique h
  induction rows with
  | nil => cases h
  | cons head rest ih =>
    simp only [List.map_cons, List.nodup_cons] at unique
    rcases List.mem_cons.mp h with rfl | h
    · simp
    · have ne : head.key ≠ t.key := fun eq => unique.1 (eq ▸ List.mem_map_of_mem h)
      simpa [ne] using ih unique.2 h

lemma eq_of_find (unique : s.UniqueKeys) {row : Task} (found : s.find k = some row)
    (ht : t ∈ s.tasks) (atKey : t.key = k) : t = row := by
  have own := find_of_mem unique ht
  rw [atKey, found] at own
  exact (Option.some.inj own).symm

lemma find_map (f : Task → Task) (keeps : ∀ t, (f t).key = t.key) (k : TaskKey) :
    ({ s with tasks := s.tasks.map f } : Store).find k = (s.find k).map f := by
  unfold Store.find
  induction s.tasks with
  | nil => rfl
  | cons head rest ih =>
    simp only [List.map_cons, List.find?_cons, keeps]
    split
    · rfl
    · exact ih

lemma find_update {f : Task → Task} (keeps : ∀ t, (f t).key = t.key) (found : s.find k = some t) :
    (s.update k f).find k = some (f t) := by
  rw [Store.update, find_map, found, Option.map_some, if_pos (find_key found)]
  intro t
  split
  · exact keeps t
  · rfl

lemma uniqueKeys_map (f : Task → Task) (keeps : ∀ t, (f t).key = t.key) :
    ({ s with tasks := s.tasks.map f } : Store).UniqueKeys ↔ s.UniqueKeys := by
  simp [Store.UniqueKeys, Function.comp_def, keeps]

/-- The rows of `s'` are those of `s`, each rewritten by `f`. -/
structure Rewritten (s s' : Store) (f : Task → Task) : Prop where
  tasks : s'.tasks = s.tasks.map f
  deps : s'.deps = s.deps
  key : ∀ t, (f t).key = t.key

namespace Rewritten

variable {s' : Store} {f : Task → Task} (R : Rewritten s s' f)
include R

lemma find (k : TaskKey) : s'.find k = (s.find k).map f := by
  rw [← find_map f R.key k, Store.find, Store.find, R.tasks]

lemma mem (ht : t ∈ s.tasks) : f t ∈ s'.tasks :=
  R.tasks ▸ List.mem_map_of_mem ht

lemma uniqueKeys (unique : s.UniqueKeys) : s'.UniqueKeys := by
  have kept := (uniqueKeys_map f R.key).mpr unique
  simpa only [Store.UniqueKeys, R.tasks] using kept

lemma dependenciesOf (k : TaskKey) : s'.dependenciesOf k = s.dependenciesOf k := by
  rw [Store.dependenciesOf, R.deps, Store.dependenciesOf]

end Rewritten

end Velda.TaskStore
