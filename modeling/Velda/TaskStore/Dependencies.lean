import Velda.TaskStore.Create

/-! Whose dependencies `CreateTask` adds. The rows are written for the requested name, before a
free one is chosen, and a task that is refused counts all the dependencies it asked for. -/
namespace Velda.TaskStore
open List Option Store

variable {s s' : Store} {r : SessionRequest} {now : Time} {key : TaskKey} {count : Int}
  {row : Task}

def Store.unmet (s : Store) (d : Dependency) : Bool := s.unfinished d.upstream || s.refuses d

/-- The rows that were added are those of task `key`, which waits for its rows that are not met. -/
structure DependenciesOwned (s s' : Store) (key : TaskKey) : Prop where
  added : ∃ rows, s'.deps = s.deps ++ rows ∧ ∀ d ∈ rows, d.downstream = key
  others : ∀ k ≠ key, s'.dependenciesOf k = s.dependenciesOf k
  pending : ∃ row, s'.find key = some row ∧
    row.pendingUpstreams = (s'.dependenciesOf key).countP s'.unmet

/-- A row is not met once task `key` is `FAILED_UPSTREAM`. -/
def Store.unmetAfter (s : Store) (key : TaskKey) (d : Dependency) : Bool :=
  if d.upstream = key then d.trigger = .success else s.unmet d

/-- The requested name is free if there are dependencies, and rows left behind for the name of the
task are met. If a dependency is refused, the rows up to it and those left behind that are not met
are as many as the dependencies. -/
def Unmixed (s : Store) (r : SessionRequest) (key : TaskKey) : Prop :=
  (r.dependencies = [] ∨ s.find r.taskId = none) ∧
    if r.dependencyRows.any s.refuses then
      (s.dependenciesOf key ++ s.linked r.dependencyRows).countP (s.unmetAfter key) =
        r.dependencies.length
    else ∀ d ∈ s.dependenciesOf key, s.unmet d = false

lemma statusOf_append (free : s.find key = none) (atKey : row.key = key)
    (tasks : s'.tasks = s.tasks ++ [row]) : s'.find key = some row ∧
      ∀ k, s'.statusOf k = if k = key then some row.status else s.statusOf k := by
  have found : s'.find key = some row := by
    rw [find, tasks, find?_append]
    change (s.find key).or _ = _
    simp [free, atKey]
  refine ⟨found, fun k => ?_⟩
  split
  · next own => rw [own, statusOf, found, map_some]
  · next other => simp [statusOf, find, tasks, atKey, Ne.symm other]

lemma unmet_queueing (free : s.find key = none)
    (after : ∀ k, s'.statusOf k = if k = key then some .queueing else s.statusOf k) :
    s'.unmet = s.unmet := by
  funext d
  unfold unmet unfinished refuses
  rw [after]
  by_cases own : d.upstream = key
  · simp [own, statusOf, free, Status.finished]
  · rw [if_neg own]

lemma unmet_failed
    (after : ∀ k, s'.statusOf k = if k = key then some .failedUpstream else s.statusOf k) :
    s'.unmet = s.unmetAfter key := by
  funext d
  unfold unmetAfter unmet unfinished refuses
  rw [after]
  by_cases own : d.upstream = key
  · simp only [own]
    cases d.trigger <;> rfl
  · rw [if_neg own, if_neg own]

/-- The dependencies that a creation adds are those of the new task, and it waits for as many as are
not met, exactly when the condition holds. -/
theorem dependencies_owned_iff (h : createTask s r now = some (s', key, count)) :
    DependenciesOwned s s' key ↔ Unmixed s r key := by
  obtain ⟨name, own, free, same, -, tasks, deps, counted⟩ := createTask_spec h
  obtain ⟨found, after⟩ := statusOf_append free own.symm tasks
  have downstream : ∀ d ∈ s.linked r.dependencyRows, d.downstream = r.taskId := by
    intro d hd
    obtain ⟨e, -, rfl⟩ := mem_map.mp ((linked_isPrefix s _).subset hd)
    rfl
  have rows : ∀ k, s'.dependenciesOf k =
      s.dependenciesOf k ++ (s.linked r.dependencyRows).filter (·.downstream = k) := by
    intro k
    rw [dependenciesOf, deps, filter_append]
    rfl
  have mine : (∀ d ∈ s.linked r.dependencyRows, d.downstream = key) ↔
      r.dependencies = [] ∨ s.find r.taskId = none := by
    constructor
    · intro all
      cases asked : r.dependencies with
      | nil => exact .inl rfl
      | cons e rest =>
        have first : ⟨r.taskId, ⟨r.taskId.parentId, e.1⟩, e.2.trigger⟩ ∈
            s.linked r.dependencyRows := by simp [linked, SessionRequest.dependencyRows, asked]
        rw [← all _ first] at free
        exact .inr free
    · rintro (none | unused)
      · simp [linked, SessionRequest.dependencyRows, none]
      · intro d hd
        rw [downstream d hd, own, same unused]
  have pending : (∀ d ∈ s.linked r.dependencyRows, d.downstream = key) →
      (count = (s'.dependenciesOf key).countP s'.unmet ↔ (Unmixed s r key)) := by
    intro all
    rw [Unmixed, and_iff_right (mine.mp all), rows, counted,
      filter_eq_self.mpr (by simpa using all)]
    cases refused : r.dependencyRows.any s.refuses with
    | true =>
      rw [refused] at after
      rw [unmet_failed after]
      simp only [if_true]
      omega
    | false =>
      rw [refused] at after
      have asked : r.dependencyRows.countP s.unmet =
          r.dependencyRows.countP fun d => s.unfinished d.upstream := by
        refine countP_congr fun d hd => ?_
        rw [unmet, Bool.eq_false_iff.mpr (any_eq_false.mp refused d hd), Bool.or_false]
      have none : (∀ d ∈ s.dependenciesOf key, s.unmet d = false) ↔
          (s.dependenciesOf key).countP s.unmet = 0 := by simp
      rw [unmet_queueing free after, linked_of_accepted refused, countP_append, asked]
      simp only [Bool.false_eq_true, if_false, none]
      omega
  constructor
  · rintro ⟨⟨added, eq, all⟩, -, row, again, waits⟩
    rw [deps, append_cancel_left_eq] at eq
    subst eq
    rw [found] at again
    cases again
    exact (pending all).mp waits
  · intro unmixed
    have all := mine.mpr unmixed.1
    refine ⟨⟨_, deps, all⟩, fun k other => ?_, _, found, (pending all).mpr unmixed⟩
    rw [rows, filter_eq_nil_iff.mpr, append_nil]
    intro d hd
    rw [all d hd]
    simpa using Ne.symm other

def second : SessionRequest :=
  ⟨⟨[], "b"⟩, [("a", .unspecified)], "default", 0, 0, [], []⟩

theorem dependencies_owned_free : ∃ s' key count,
    createTask .empty second 0 = some (s', key, count) ∧ DependenciesOwned .empty s' key :=
  ⟨_, _, _, createTask_eq 0 rfl,
    (dependencies_owned_iff (createTask_eq 0 rfl)).mpr ⟨.inr rfl, by decide⟩⟩

/-- The name is taken by a task without dependencies, and that one gains the row. -/
theorem dependency_of_other : ∃ s s' key count,
    createTask .empty { second with dependencies := [] } 0 = some (s, ⟨[], "b"⟩, 0) ∧
    createTask s second 0 = some (s', key, count) ∧ ¬ DependenciesOwned s s' key := by
  refine ⟨_, _, ⟨[], "b_2"⟩, 1, createTask_eq 0 rfl, rfl, fun owned => ?_⟩
  have same := owned.others ⟨[], "b"⟩ (by decide)
  revert same
  decide

end Velda.TaskStore
