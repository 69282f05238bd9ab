import Velda.TaskStore.Leases

/-! Tasks that have ended, and tasks that nothing ends. A row stays the row of the same task, and
of all that is done to the store only a result can take it back from its end. -/
namespace Velda.TaskStore
open List Option

def Task.label (t : Task) : TaskKey × Int × List UInt8 := (t.key, t.instanceId, t.payload)

structure Task.Lasts (t t' : Task) : Prop where
  label : t'.label = t.label
  ended : t.status.terminal = true → t'.status.terminal = true

namespace Task.Lasts
variable {t t' t'' : Task}

lemma refl (t : Task) : t.Lasts t := ⟨rfl, id⟩

lemma trans (h : t.Lasts t') (h' : t'.Lasts t'') : t.Lasts t'' :=
  ⟨h'.label.trans h.label, h'.ended ∘ h.ended⟩

lemma key (h : t.Lasts t') : t'.key = t.key := congrArg (·.1) h.label

lemma instanceId (h : t.Lasts t') : t'.instanceId = t.instanceId := congrArg (·.2.1) h.label

lemma payload (h : t.Lasts t') : t'.payload = t.payload := congrArg (·.2.2) h.label

end Task.Lasts

variable {New : TaskKey × Int × List UInt8 → Prop} {s s' : Store} {k : TaskKey}

def Store.Unended (s : Store) (k : TaskKey) : Prop :=
  ∀ t ∈ s.tasks, t.key = k → t.status.terminal = false

instance (s : Store) (k : TaskKey) : Decidable (s.Unended k) :=
  inferInstanceAs (Decidable (∀ t ∈ s.tasks, t.key = k → _))

/-- Every row lasts, and the new rows are `New`. -/
structure Lasts (New : TaskKey × Int × List UInt8 → Prop) (s s' : Store) : Prop where
  unique : s.UniqueKeys → s'.UniqueKeys
  old : ∀ t' ∈ s'.tasks, New t'.label ∨ ∃ t ∈ s.tasks, t.Lasts t'
  kept : ∀ t ∈ s.tasks, ∃ t' ∈ s'.tasks, t.Lasts t'

variable {clock : Nat → Time} {f : Task → Task} {now : Time} {s'' : Store} {resolved : Nat}
  {parentId : List Name} {taskId : Name} {result : FinalResult} {j : TaskKey}

namespace Lasts

lemma of_map (tasks : s'.tasks = s.tasks.map f) (rows : ∀ t ∈ s.tasks, t.Lasts (f t)) :
    Lasts New s s' where
  unique unique := by
    have keys : s'.tasks.map (·.key) = s.tasks.map (·.key) := by
      rw [tasks, List.map_map]
      exact map_congr_left fun t ht => (rows t ht).key
    rwa [Store.UniqueKeys, keys]
  old t' mem := by
    rw [tasks] at mem
    obtain ⟨t, ht, rfl⟩ := mem_map.mp mem
    exact .inr ⟨t, ht, rows t ht⟩
  kept t ht := ⟨f t, tasks ▸ mem_map_of_mem ht, rows t ht⟩

lemma of_tasks (same : s'.tasks = s.tasks) : Lasts New s s' :=
  of_map (by simp [same]) fun t _ => .refl t

lemma refl (s : Store) : Lasts New s s := of_tasks rfl

lemma trans (h : Lasts New s s') (h' : Lasts New s' s'') : Lasts New s s'' where
  unique := h'.unique ∘ h.unique
  old t'' mem := by
    rcases h'.old t'' mem with made | ⟨t', ht', lasts'⟩
    · exact .inl made
    · rcases h.old t' ht' with made | ⟨t, ht, lasts⟩
      · exact .inl (lasts'.label ▸ made)
      · exact .inr ⟨t, ht, lasts.trans lasts'⟩
  kept t ht := by
    obtain ⟨t', ht', lasts⟩ := h.kept t ht
    obtain ⟨t'', ht'', lasts'⟩ := h'.kept t' ht'
    exact ⟨t'', ht'', lasts.trans lasts'⟩

lemma update (rows : ∀ t ∈ s.tasks, t.key = k → t.Lasts (f t)) : Lasts New s (s.update k f) := by
  refine of_map rfl fun t ht => ?_
  split
  · next atKey => exact rows t ht atKey
  · exact .refl t

section Report
variable {outcome : Outcome}

lemma applyRows (rows : List UpdateRow) (now : Time) (t : Task) :
    t.Lasts (applyRows rows now t) := by
  refine ⟨?_, fun ended => ?_⟩
  · unfold TaskStore.applyRows
    split <;> rfl
  · rw [applyRows_status]
    cases firstOutcome rows t.key with
    | none => exact ended
    | some o =>
      cases o with
      | met => exact ended
      | _ => rfl

lemma propagate (h : s.propagate base outcome now = some (s', resolved)) : Lasts New s s' := by
  obtain ⟨rows, -, R, -⟩ := propagate_rewritten h
  exact of_map R.tasks fun t _ => applyRows rows now t

lemma updateTaskStatus (h : updateTaskStatus parentId s clock taskId outcome = some s') :
    Lasts New s s' := by
  obtain ⟨t, resolved, propagated, later⟩ := updateTaskStatus_rule (R := Lasts New) .refl .trans
    .propagate (fun _ _ _ => .update fun _ _ _ => ⟨rfl, id⟩) h
  exact .trans (.propagate propagated) later

lemma updateTaskFinalResult (unended : result.cancelled = false → s.Unended k)
    (h : updateTaskFinalResult s k result clock = some s') : Lasts New s s' := by
  unfold TaskStore.updateTaskFinalResult at h
  split at h
  · cases h
    refine .update fun t _ _ => ?_
    split
    · exact ⟨rfl, fun _ => rfl⟩
    · exact .refl t
  · next final =>
    split at h
    · cases h
    · have recorded : Lasts New s (s.recordResult k result (clock 0)) := by
        refine .update fun t ht atKey => ⟨rfl, fun ended => ?_⟩
        rw [unended (by simpa using final) t ht atKey] at ended
        cases ended
      split at h
      · cases h
        exact recorded.trans (.of_tasks rfl)
      · exact recorded.trans (.updateTaskStatus h)

end Report

lemma cancelJob (jobId : Name) (now : Time) : Lasts New s (cancelJob s jobId now) := by
  refine of_map rfl fun t _ => ?_
  split
  · exact ⟨rfl, fun _ => rfl⟩
  · exact .refl t

lemma pollTasksOnce (unique : s.UniqueKeys) (leaser : String) :
    Lasts New s (pollTasksOnce s leaser).1 := by
  refine of_map rfl fun t ht => ?_
  split
  · next chosen =>
    refine ⟨rfl, fun ended => ?_⟩
    rw [(ready_of_available unique ht chosen).1] at ended
    cases ended
  · exact .refl t

lemma releaseLeases (expired : List String) : Lasts New s (releaseLeases s expired) := by
  refine of_map rfl fun t _ => ?_
  split
  · next released =>
    refine ⟨rfl, fun ended => ?_⟩
    simp only [Bool.and_eq_true, decide_eq_true_eq] at released
    rw [released.1] at ended
    cases ended
  · exact .refl t

lemma reconnectTask (h : reconnectTask s k leaser = some s') : Lasts New s s' := by
  unfold TaskStore.reconnectTask at h
  split at h
  · cases h
    exact .update fun t _ _ => ⟨rfl, id⟩
  · cases h

end Lasts

lemma updateTaskStatus_deps {outcome : Outcome}
    (h : updateTaskStatus parentId s clock taskId outcome = some s') : s'.deps = s.deps := by
  obtain ⟨t, resolved, propagated, later⟩ := updateTaskStatus_rule
    (R := fun s s' => s'.deps = s.deps) (fun _ => rfl) (fun before after => after.trans before)
    propagate_deps (fun _ _ _ => rfl) h
  exact later.trans (propagate_deps propagated)

lemma updateTaskFinalResult_deps (h : updateTaskFinalResult s k result clock = some s') :
    s'.deps = s.deps := by
  unfold updateTaskFinalResult at h
  split at h
  · cases h
    rfl
  · split at h
    · cases h
    · split at h
      · cases h
        rfl
      · exact (updateTaskStatus_deps h).trans rfl

structure Stands (k : TaskKey) (s s' : Store) : Prop where
  deps : s'.deps = s.deps
  old : ∀ t' ∈ s'.tasks, t'.key = k → ∃ t ∈ s.tasks, t.label = t'.label ∧ t.status = t'.status

/-- No task that the task of the key waits for, or waits with, can end it. -/
structure Store.Alone (s : Store) (k : TaskKey) : Prop where
  upstreams : ∀ d ∈ s.deps, d.downstream ≠ k
  status : ∀ t ∈ s.tasks, t.key = k → t.status ≠ .runningSubtasks

lemma Store.Alone.stands (h : s.Alone k) (stands : Stands k s s') : s'.Alone k where
  upstreams := stands.deps ▸ h.upstreams
  status t' mem atKey := by
    obtain ⟨t, ht, label, status⟩ := stands.old t' mem atKey
    rw [← status]
    exact h.status t ht ((congrArg (·.1) label).trans atKey)

namespace Stands

lemma of_map (tasks : s'.tasks = s.tasks.map f) (deps : s'.deps = s.deps)
    (rows : ∀ t ∈ s.tasks, (f t).label = t.label ∧ (t.key = k → (f t).status = t.status)) :
    Stands k s s' := by
  refine ⟨deps, fun t' mem atKey => ?_⟩
  rw [tasks] at mem
  obtain ⟨t, ht, rfl⟩ := mem_map.mp mem
  obtain ⟨label, status⟩ := rows t ht
  exact ⟨t, ht, label.symm, (status ((congrArg (·.1) label).symm.trans atKey)).symm⟩

lemma of_tasks (tasks : s'.tasks = s.tasks) (deps : s'.deps = s.deps) : Stands k s s' :=
  of_map (by simp [tasks]) deps fun _ _ => ⟨rfl, fun _ => rfl⟩

lemma refl (s : Store) : Stands k s s := of_tasks rfl rfl

lemma trans (h : Stands k s s') (h' : Stands k s' s'') : Stands k s s'' := by
  refine ⟨h'.deps.trans h.deps, fun t'' mem atKey => ?_⟩
  obtain ⟨t', ht', label', status'⟩ := h'.old t'' mem atKey
  obtain ⟨t, ht, label, status⟩ := h.old t' ht' ((congrArg (·.1) label').trans atKey)
  exact ⟨t, ht, label.trans label', status.trans status'⟩

lemma update
    (rows : ∀ t ∈ s.tasks, t.key = j → (f t).label = t.label ∧ (j = k → (f t).status = t.status)) :
    Stands k s (s.update j f) := by
  refine of_map rfl rfl fun t ht => ?_
  split
  · next atKey =>
    obtain ⟨label, status⟩ := rows t ht atKey
    exact ⟨label, fun same => status (atKey.symm.trans same)⟩
  · exact ⟨rfl, fun _ => rfl⟩

section Report
variable {outcome : Outcome}

lemma propagate (alone : s.Alone k) (other : base ≠ k)
    (h : s.propagate base outcome now = some (s', resolved)) : Stands k s s' := by
  obtain ⟨rows, found, R, -⟩ := propagate_rewritten h
  refine of_map R.tasks R.deps fun t ht => ⟨(Lasts.applyRows rows now t).label, fun atKey => ?_⟩
  have unreached : firstOutcome rows t.key = none := by
    refine firstOutcome_eq_none (countP_eq_zero.mpr fun r mem => ?_)
    simp only [decide_eq_true_eq, atKey]
    rintro ⟨same, -⟩
    rcases row_cases found mem with rfl | ⟨d, dep, _, _, _, _, rfl⟩
    · exact other same
    · exact alone.upstreams d dep same
  rw [applyRows_status, unreached]
  rfl

lemma completeChildren (parent : TaskKey) (resolved : Nat) :
    Stands k s (s.completeChildren parent resolved).1 := by
  unfold Store.completeChildren
  split
  · exact .refl s
  · have bumped : ∀ n : Nat, Stands k s (s.update parent fun t =>
        { t with completedChildren := n }) := fun n => .update fun t _ _ => ⟨rfl, fun _ => rfl⟩
    dsimp only
    split
    · split <;> exact bumped _
    · exact bumped _

lemma ne_of_climbs {parent : TaskKey} (alone : s.Alone k)
    (h : s.completeChildren parent resolved = (s', some outcome)) : parent ≠ k := by
  rintro rfl
  unfold Store.completeChildren at h
  split at h
  · cases h
  · next row found =>
    split at h
    · next running _ => exact alone.status row (find_mem found) (find_key found) running
    · cases h

lemma updateTaskStatus (alone : s.Alone k) (other : (⟨parentId, taskId⟩ : TaskKey) ≠ k)
    (h : updateTaskStatus parentId s clock taskId outcome = some s') : Stands k s s' := by
  induction parentId generalizing s clock taskId outcome with
  | nil =>
    obtain ⟨⟨t, resolved⟩, propagated, rfl⟩ := map_eq_some_iff.mp h
    exact .propagate alone other propagated
  | cons p grand ih =>
    obtain ⟨⟨t, resolved⟩, propagated, rest⟩ := bind_eq_some_iff.mp h
    have first : Stands k s t := .propagate alone other propagated
    refine first.trans ?_
    dsimp only at rest
    split at rest
    · cases rest
      exact .refl _
    · have counted : Stands k t (t.completeChildren ⟨grand, p⟩ resolved).1 :=
        .completeChildren ..
      split at rest
      · next eq =>
        cases rest
        rwa [eq] at counted
      · next eq =>
        rw [eq] at counted
        have alone := alone.stands first
        exact counted.trans (ih (alone.stands counted) (ne_of_climbs alone eq) rest)

lemma updateTaskFinalResult (alone : s.Alone k)
    (other : j = k → result.cancelled = true ∧ s.Unleased k)
    (h : updateTaskFinalResult s j result clock = some s') : Stands k s s' := by
  unfold TaskStore.updateTaskFinalResult at h
  split at h
  · cases h
    refine .update fun t ht atKey => ?_
    split
    · next leased =>
      exact ⟨rfl, fun same => absurd leased ((other same).2 t ht (atKey.trans same))⟩
    · exact ⟨rfl, fun _ => rfl⟩
  · next final =>
    have ne : j ≠ k := fun same => final (other same).1
    split at h
    · cases h
    · have recorded : Stands k s (s.recordResult j result (clock 0)) :=
        .update fun t _ _ => ⟨rfl, fun same => absurd same ne⟩
      split at h
      · cases h
        exact recorded.trans (.of_tasks rfl rfl)
      · exact recorded.trans (.updateTaskStatus (alone.stands recorded) ne h)

end Report

lemma cancelJob {jobId : Name}
    (kept : ∀ t ∈ s.tasks, t.key = k → t.key.jobId = jobId → t.status.cancellable = false) :
    Stands k s (cancelJob s jobId now) := by
  refine of_map rfl rfl fun t ht => ?_
  split
  · next cancels =>
    simp only [Bool.and_eq_true, decide_eq_true_eq] at cancels
    refine ⟨rfl, fun atKey => ?_⟩
    rw [kept t ht atKey cancels.1] at cancels
    cases cancels.2
  · exact ⟨rfl, fun _ => rfl⟩

lemma releaseLeases {expired : List String}
    (kept : ∀ t ∈ s.tasks, t.released expired = true → t.key ≠ k) :
    Stands k s (releaseLeases s expired) := by
  refine of_map rfl rfl fun t ht => ?_
  split
  · next released => exact ⟨rfl, fun atKey => absurd atKey (kept t ht released)⟩
  · exact ⟨rfl, fun _ => rfl⟩

lemma reconnectTask (h : reconnectTask s j leaser = some s') : Stands k s s' := by
  unfold TaskStore.reconnectTask at h
  split at h
  · cases h
    exact .update fun t _ _ => ⟨rfl, fun _ => rfl⟩
  · cases h

end Stands

structure Appended (New : TaskKey × Int × List UInt8 → Prop) (s s' : Store) : Prop where
  unique : s.UniqueKeys → s'.UniqueKeys
  old : ∀ t ∈ s'.tasks, t ∈ s.tasks ∨ New t.label
  kept : s.tasks ⊆ s'.tasks

namespace Appended

lemma refl (s : Store) : Appended New s s := ⟨id, fun _ => .inl, fun _ => id⟩

lemma trans (h : Appended New s s') (h' : Appended New s' s'') : Appended New s s'' where
  unique := h'.unique ∘ h.unique
  old t mem := (h'.old t mem).elim (h.old t) .inr
  kept := fun _ ht => h'.kept (h.kept ht)

lemma mono {New' : TaskKey × Int × List UInt8 → Prop} (h : Appended New s s')
    (imp : ∀ l, New l → New' l) : Appended New' s s' :=
  ⟨h.unique, fun t mem => (h.old t mem).imp_right (imp _), h.kept⟩

lemma lasts (h : Appended New s s') : Lasts New s s' where
  unique := h.unique
  old t mem := (h.old t mem).elim (fun old => .inr ⟨t, old, .refl t⟩) .inl
  kept t ht := ⟨t, h.kept ht, .refl t⟩

end Appended

def SessionRequest.Makes (r : SessionRequest) (s : Store) (l : TaskKey × Int × List UInt8) : Prop :=
  ∃ name, l = (⟨r.taskId.parentId, name⟩, r.instanceId, r.workload) ∧
    (s.find r.taskId = none → name = r.taskId.taskId)

lemma appended_createTask {key : TaskKey} {count : Int}
    (h : createTask s r now = some (s', key, count)) : Appended (r.Makes s) s s' := by
  obtain ⟨added, name, status, tasks, -, -, rfl, -, named, -, -⟩ := createTask_cases h
  refine ⟨(createTask_grown h).unique, fun t mem => ?_, fun t ht => ?_⟩
  · rw [tasks] at mem
    rcases mem_append.mp mem with old | new
    · exact .inl old
    · cases mem_singleton.mp new
      exact .inr ⟨name, rfl, named⟩
  · rw [tasks]
    exact mem_append_left _ ht

end Velda.TaskStore
