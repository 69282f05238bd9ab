import Velda.TaskStore.Runs

/-! One turn of the loop of `updateTaskStatus`: the pass over the open siblings and the
count in the row of the parent, as one rewriting of the rows. -/
namespace Velda.TaskStore
open Lib List Option

variable {s s' : Store} {k base : TaskKey} {outcome : Outcome} {rows : List UpdateRow}

lemma terminal_eq_not_open (status : Status) : status.terminal = !status.open := by
  cases status <;> rfl

lemma terminal_of_finished {status : Status} (h : status.finished = true) :
    status.terminal = true := by
  cases status <;> simp_all [Status.finished, Status.terminal]

lemma mem_children : t ∈ s.children k ↔ t ∈ s.tasks ∧ t.key.parentId = k.childrenId := by
  simp [Store.children]

lemma childrenId_inj {a b : TaskKey} (h : a.childrenId = b.childrenId) : a = b := by
  obtain ⟨_, _⟩ := a
  cases h
  rfl

lemma Rewritten.children {f : Task → Task} (R : Rewritten s s' f) (k : TaskKey) :
    s'.children k = (s.children k).map f := by
  simp only [Store.children, R.tasks, List.filter_map]
  congr 2
  funext t
  simp [R.key]

lemma FailChain.parentId (siblings : ∀ d ∈ s.deps, d.upstream.parentId = d.downstream.parentId)
    (h : FailChain s base outcome c v o) : v.parentId = base.parentId := by
  induction h with
  | base => rfl
  | link _ dep _ _ ih => rw [← siblings _ dep, ih]

lemma firstOutcome_ne_met (h : firstOutcome rows k = some o) : o ≠ .met := by
  obtain ⟨r, found, rfl⟩ := map_eq_some_iff.mp h
  have holds := List.find?_some found
  simp only [decide_eq_true_eq] at holds
  exact holds.2

lemma firstOutcome_base (found : s.downstreamUpdates base outcome = some rows)
    (start : outcome ≠ .met) : firstOutcome rows base = some outcome := by
  obtain ⟨tail, -, rfl⟩ := map_eq_some_iff.mp found
  simp [firstOutcome, start]

def passed (rows : List UpdateRow) (now : Time) (parentId : List Name) (resolved : Nat)
    (t : Task) : Task :=
  if t.key.childrenId = parentId then (applyRows rows now t).bump resolved
  else applyRows rows now t

section Passed
variable (now : Time) (parentId : List Name) (resolved : Nat) (t : Task)

@[simp] lemma applyRows_completedChildren :
    (applyRows rows now t).completedChildren = t.completedChildren := by
  unfold applyRows
  split <;> rfl

@[simp] lemma applyRows_totalChildren :
    (applyRows rows now t).totalChildren = t.totalChildren := by
  unfold applyRows
  split <;> rfl

@[simp] lemma passed_key : (passed rows now parentId resolved t).key = t.key := by
  unfold passed
  split <;> exact applyRows_key now t

@[simp] lemma passed_result : (passed rows now parentId resolved t).result = t.result := by
  unfold passed
  split <;> exact applyRows_result now t

@[simp] lemma passed_totalChildren :
    (passed rows now parentId resolved t).totalChildren = t.totalChildren := by
  unfold passed
  split <;> exact applyRows_totalChildren now t

@[simp] lemma passed_status :
    (passed rows now parentId resolved t).status = (applyRows rows now t).status := by
  unfold passed
  split <;> rfl

@[simp] lemma passed_resolveTime :
    (passed rows now parentId resolved t).resolveTime = (applyRows rows now t).resolveTime := by
  unfold passed
  split <;> rfl

lemma passed_completedChildren : (passed rows now parentId resolved t).completedChildren =
    t.completedChildren + if t.key.childrenId = parentId then resolved else 0 := by
  unfold passed
  split <;> simp [Task.bump]

end Passed

/-- One turn of the loop of `updateTaskStatus`, with the outcome the parent goes on with. -/
def Store.pass (s : Store) (base : TaskKey) (outcome : Outcome) (now : Time) :
    Option (Store × Option Outcome) :=
  (s.propagate base outcome now).map fun (s, resolved) =>
    match base.parentId with
    | [] => (s, none)
    | p :: grand => if p :: grand = [""] then (s, none) else s.completeChildren ⟨grand, p⟩ resolved

lemma updateTaskStatus_cons (p : Name) (grand : List Name) (clock : Nat → Time)
    (taskId : Name) :
    updateTaskStatus (p :: grand) s clock taskId outcome =
      (s.pass ⟨p :: grand, taskId⟩ outcome (clock 0)).bind fun turn =>
        match turn.2 with
        | none => some turn.1
        | some next => updateTaskStatus grand turn.1 (fun i => clock (i + 1)) p next := by
  simp only [updateTaskStatus, Store.pass, bind_map, Function.comp_def]
  congr 1
  funext turn
  obtain ⟨s, resolved⟩ := turn
  split
  · rfl
  · rcases s.completeChildren ⟨grand, p⟩ resolved with ⟨s, _ | next⟩ <;> rfl

lemma updateTaskStatus_turn {clock : Nat → Time}
    (h : updateTaskStatus base.parentId s clock base.taskId outcome = some s') :
    ∃ m next, s.pass base outcome (clock 0) = some (m, next) ∧ (next = none ∧ s' = m ∨
      ∃ (parent : TaskKey) (o : Outcome), next = some o ∧ parent.childrenId = base.parentId ∧
        updateTaskStatus parent.parentId m (fun i => clock (i + 1)) parent.taskId o = some s') := by
  obtain ⟨parentId, taskId⟩ := base
  cases parentId with
  | nil =>
    obtain ⟨⟨m, resolved⟩, propagated, rfl⟩ := map_eq_some_iff.mp h
    exact ⟨m, none, by rw [Store.pass, propagated]; rfl, .inl ⟨rfl, rfl⟩⟩
  | cons p grand =>
    rw [updateTaskStatus_cons] at h
    obtain ⟨⟨m, next⟩, passed, rest⟩ := bind_eq_some_iff.mp h
    refine ⟨m, next, passed, ?_⟩
    cases next with
    | none =>
      cases rest
      exact .inl ⟨rfl, rfl⟩
    | some o => exact .inr ⟨⟨grand, p⟩, o, rfl, rfl, rest⟩

/-- What one turn hands on to the next holds up to the last one. -/
lemma updateTaskStatus_induction {P : Store → TaskKey → Outcome → Prop} {Q : Store → Prop}
    {clock : Nat → Time} (turn : ∀ {s base outcome now s' next}, P s base outcome →
      s.pass base outcome now = some (s', next) → (next = none → Q s') ∧
        ∀ o, next = some o → ∃ parent, parent.childrenId = base.parentId ∧ P s' parent o)
    (start : P s base outcome)
    (h : updateTaskStatus base.parentId s clock base.taskId outcome = some s') : Q s' := by
  obtain ⟨parentId, taskId⟩ := base
  induction parentId generalizing s clock taskId outcome with
  | nil =>
    obtain ⟨m, next, passed, ⟨rfl, rfl⟩ | ⟨parent, o, -, up, -⟩⟩ := updateTaskStatus_turn h
    · exact (turn start passed).1 rfl
    · cases up
  | cons p grand ih =>
    obtain ⟨m, next, passed, ⟨rfl, rfl⟩ | ⟨parent, o, rfl, up, rest⟩⟩ := updateTaskStatus_turn h
    · exact (turn start passed).1 rfl
    · obtain ⟨parent', up', start'⟩ := (turn start passed).2 o rfl
      obtain rfl : parent = ⟨grand, p⟩ := childrenId_inj up
      obtain rfl : parent' = ⟨grand, p⟩ := childrenId_inj up'
      exact ih p start' rest

lemma updateTaskStatus_rule {R : Store → Store → Prop} {parentId : List Name} {clock : Nat → Time}
    (refl : ∀ s, R s s) (trans : ∀ {s t u}, R s t → R t u → R s u) (passes : ∀ {s s' base outcome
      now resolved}, s.propagate base outcome now = some (s', resolved) → R s s')
    (counts : ∀ s parent n, R s (s.update parent fun t => { t with completedChildren := n }))
    (h : updateTaskStatus parentId s clock taskId outcome = some s') :
    ∃ t resolved, s.propagate ⟨parentId, taskId⟩ outcome (clock 0) = some (t, resolved) ∧
      R t s' := by
  induction parentId generalizing s clock taskId outcome with
  | nil =>
    obtain ⟨⟨t, resolved⟩, propagated, rfl⟩ := map_eq_some_iff.mp h
    exact ⟨t, resolved, propagated, refl t⟩
  | cons p grand ih =>
    obtain ⟨⟨t, resolved⟩, propagated, rest⟩ := bind_eq_some_iff.mp h
    refine ⟨t, resolved, propagated, ?_⟩
    dsimp only at rest
    split at rest
    · cases rest
      exact refl _
    · have counted : R t (t.completeChildren ⟨grand, p⟩ resolved).1 := by
        unfold Store.completeChildren
        split
        · exact refl t
        · dsimp only
          split
          · split <;> exact counts ..
          · exact counts ..
      split at rest
      · next eq =>
        cases rest
        rwa [eq] at counted
      · next eq =>
        obtain ⟨u, _, propagated', later⟩ := ih rest
        rw [eq] at counted
        exact trans counted (trans (passes propagated') later)

lemma completeChildren_announced (s : Store) (parent : TaskKey) (resolved : Nat) :
    (s.completeChildren parent resolved).1.announced = s.announced := by
  unfold Store.completeChildren
  split
  · rfl
  · dsimp only
    split
    · split <;> rfl
    · rfl

/-- A turn ends with the pass over the siblings, or counts in the row of their parent. -/
inductive Counted (s s' : Store) (base : TaskKey) (now : Time) (rows : List UpdateRow) (n : Nat)
    (next : Option Outcome) : Prop
  | alone : Rewritten s s' (applyRows rows now) → next = none →
      (∀ t ∈ s.tasks, t.key.childrenId = base.parentId → base.parentId = [""]) →
      Counted s s' base now rows n next
  | parent {parent : TaskKey} {row : Task} : parent.childrenId = base.parentId →
      base.parentId ≠ [""] → s.find parent = some row →
      Rewritten s s' (passed rows now base.parentId n) →
      next = (if ((applyRows rows now row).bump n).complete then some (s'.childrenOutcome parent)
        else none) → Counted s s' base now rows n next

lemma pass_cases {now : Time} {next : Option Outcome} (unique : s.UniqueKeys)
    (h : s.pass base outcome now = some (s', next)) :
    ∃ m n rows, s.propagate base outcome now = some (m, n) ∧ s'.announced = m.announced ∧
      s.downstreamUpdates base outcome = some rows ∧
      (n = s.tasks.countP fun t =>
        touched rows t && (applyRows rows now t).resolveTime = some now) ∧
      Counted s s' base now rows n next := by
  obtain ⟨⟨m, n⟩, propagated, turn⟩ := map_eq_some_iff.mp h
  obtain ⟨rows, found, R, counts⟩ := propagate_rewritten propagated
  refine ⟨m, n, rows, propagated, ?_⟩
  obtain ⟨parentId, taskId⟩ := base
  cases parentId with
  | nil =>
    cases turn
    exact ⟨rfl, found, counts, .alone R rfl fun t _ parent => by cases parent⟩
  | cons p grand =>
    dsimp only at turn
    split at turn
    · next root =>
      cases turn
      exact ⟨rfl, found, counts, .alone R rfl fun _ _ _ => root⟩
    · next notRoot =>
      have isParent : ∀ t : Task, t.key.childrenId = p :: grand ↔ t.key = ⟨grand, p⟩ := fun t =>
        ⟨fun parent => childrenId_inj parent, fun parent => by rw [parent]; rfl⟩
      have quiet := completeChildren_announced m ⟨grand, p⟩ n
      rw [turn] at quiet
      refine ⟨quiet, found, counts, ?_⟩
      rcases completeChildren_cases (R.uniqueKeys unique) turn with
        ⟨missing, rfl, rfl⟩ | ⟨row, hrow, bumped, climbs⟩
      · refine .alone R rfl fun t ht parent => ?_
        rw [R.find, map_eq_none_iff, ← (isParent t).mp parent, find_of_mem unique ht] at missing
        cases missing
      · rw [R.find] at hrow
        obtain ⟨row, there, rfl⟩ := map_eq_some_iff.mp hrow
        refine .parent rfl notRoot there ⟨?_, bumped.deps.trans R.deps, passed_key now _ _⟩ climbs
        rw [bumped.tasks, R.tasks, List.map_map]
        refine map_congr_left fun t _ => ?_
        simp only [Function.comp_apply, applyRows_key, passed, isParent]

structure Turned (s s' : Store) (base : TaskKey) (outcome : Outcome) (now : Time)
    (rows : List UpdateRow) (next : Option Outcome) : Prop where
  found : s.downstreamUpdates base outcome = some rows
  rewritten : Rewritten s s' (passed rows now base.parentId
    (s.tasks.countP fun t => touched rows t && (applyRows rows now t).resolveTime = some now))
  waits : next = none → ∀ t ∈ s'.tasks, t.key.childrenId = base.parentId → t.complete = false
  climbs : ∀ o, next = some o → ∃ t ∈ s'.tasks, t.key.childrenId = base.parentId ∧
    t.complete = true ∧ o = s'.childrenOutcome t.key

lemma turned_of_orphan (found : s.downstreamUpdates base outcome = some rows)
    (R : Rewritten s s' (applyRows rows now))
    (orphan : ∀ t ∈ s.tasks, t.key.childrenId ≠ base.parentId) :
    Turned s s' base outcome now rows none := by
  refine ⟨found, ⟨?_, R.deps, passed_key now _ _⟩, ?_, by simp⟩
  · rw [R.tasks]
    exact map_congr_left fun t ht => (if_neg (orphan t ht)).symm
  · rw [R.tasks]
    refine fun _ => forall_mem_map.mpr fun t ht parent => ?_
    rw [applyRows_key] at parent
    exact absurd parent (orphan t ht)

lemma turned_of_pass {now : Time} {next : Option Outcome} (unique : s.UniqueKeys)
    (named : ∀ t ∈ s.tasks, t.key ≠ ⟨[], ""⟩) (h : s.pass base outcome now = some (s', next)) :
    ∃ rows, Turned s s' base outcome now rows next := by
  obtain ⟨_, _, rows, -, -, found, rfl, counted⟩ := pass_cases unique h
  refine ⟨rows, ?_⟩
  cases counted with
  | alone R ends orphan =>
    subst ends
    refine turned_of_orphan found R fun t ht parent => named t ht (childrenId_inj ?_)
    rw [parent, orphan t ht parent]
    rfl
  | @parent k row up _ there R climbs =>
    have bumped := R.find k
    rw [there, map_some, passed, if_pos (by rw [find_key there, up])] at bumped
    refine ⟨found, R, ?_, ?_⟩
    · intro stopped t ht parent
      rw [← childrenId_inj (parent.trans up.symm), find_of_mem (R.uniqueKeys unique) ht] at bumped
      cases bumped
      rw [stopped] at climbs
      split at climbs
      · cases climbs
      · next waiting => exact Bool.eq_false_iff.mpr waiting
    · intro o climbed
      have atKey := find_key bumped
      refine ⟨_, find_mem bumped, by rw [atKey, up], ?_⟩
      rw [climbed] at climbs
      split at climbs
      · next complete => exact ⟨complete, by rw [Option.some.inj climbs, atKey]⟩
      · cases climbs

def Store.recorded (s : Store) (k : TaskKey) (result : FinalResult) (now : Time) (t : Task) :
    Task :=
  if t.key = k then
    { t with
      totalChildren := some (s.children k).length
      status := if (s.children k).length > t.completedChildren then .runningSubtasks else t.status
      startTime := some result.startTime
      finishTime := some now
      result := some result.payload }
  else t

section Recorded
variable (result : FinalResult) (now : Time) (t : Task)

@[simp] lemma recorded_key : (s.recorded k result now t).key = t.key := by
  unfold Store.recorded
  split <;> rfl

@[simp] lemma recorded_resolveTime : (s.recorded k result now t).resolveTime = t.resolveTime := by
  unfold Store.recorded
  split <;> rfl

@[simp] lemma recorded_completedChildren :
    (s.recorded k result now t).completedChildren = t.completedChildren := by
  unfold Store.recorded
  split <;> rfl

end Recorded

lemma recordResult_rewritten (result : FinalResult) (now : Time) :
    Rewritten s (s.recordResult k result now) (s.recorded k result now) :=
  ⟨rfl, rfl, recorded_key result now⟩

end Velda.TaskStore
