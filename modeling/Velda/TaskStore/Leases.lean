import Velda.TaskStore.Subtasks

/-! Who holds the rows. A report ends tasks and never hands one out; only a poll and a
reconnection lease rows, and only a creation and a release put them in the queue. -/
namespace Velda.TaskStore
open Lib List Option Function

variable {s s' : Store} {k : TaskKey}

namespace Store

def Leased (s : Store) (leaser : String) (k : TaskKey) : Prop :=
  ∃ t ∈ s.tasks, t.key = k ∧ t.status = .leased ∧ t.leaseBy = some leaser

def Queued (s : Store) (k : TaskKey) : Prop := ∃ t ∈ s.tasks, t.key = k ∧ t.status = .queueing

def Has (s : Store) (k : TaskKey) : Prop := k ∈ s.tasks.map (·.key)

def Taken (s : Store) (k : TaskKey) : Prop := s.Has k ∧ ¬ s.Queued k

instance (s : Store) (leaser : String) (k : TaskKey) : Decidable (s.Leased leaser k) :=
  inferInstanceAs (Decidable (∃ t ∈ s.tasks, _))

instance (s : Store) (k : TaskKey) : Decidable (s.Queued k) :=
  inferInstanceAs (Decidable (∃ t ∈ s.tasks, _))

instance (s : Store) (k : TaskKey) : Decidable (s.Has k) :=
  inferInstanceAs (Decidable (k ∈ s.tasks.map (·.key)))

instance (s : Store) (k : TaskKey) : Decidable (s.Taken k) := inferInstanceAs (Decidable (_ ∧ _))

end Store

/-- The row keeps its lease and its status, or leaves both the queue and the lease. -/
def Task.Settles (t t' : Task) : Prop :=
  t'.key = t.key ∧ t'.leaseBy = t.leaseBy ∧
    (t'.status = t.status ∨ t'.status ≠ .leased ∧ t'.status ≠ .queueing)

lemma Task.Settles.refl (t : Task) : t.Settles t := ⟨rfl, rfl, .inl rfl⟩

lemma Task.Settles.trans {t t' t'' : Task} (h : t.Settles t') (h' : t'.Settles t'') :
    t.Settles t'' := by
  obtain ⟨key, lease, status⟩ := h
  obtain ⟨key', lease', status'⟩ := h'
  refine ⟨key'.trans key, lease'.trans lease, ?_⟩
  rcases status' with same | gone
  · rw [same]
    exact status
  · exact .inr gone

def Settles (s s' : Store) : Prop :=
  ∃ f : Task → Task, s'.tasks = s.tasks.map f ∧ ∀ t ∈ s.tasks, t.Settles (f t)

namespace Settles

lemma refl (s : Store) : Settles s s := ⟨id, by simp, fun t _ => .refl t⟩

lemma of_tasks (same : s'.tasks = s.tasks) : Settles s s' :=
  ⟨id, by simp [same], fun t _ => .refl t⟩

section

variable (h : Settles s s')
include h

lemma trans {s'' : Store} (h' : Settles s' s'') : Settles s s'' := by
  obtain ⟨f, tasks, rows⟩ := h
  obtain ⟨g, tasks', rows'⟩ := h'
  refine ⟨g ∘ f, by rw [tasks', tasks, List.map_map], fun t ht => ?_⟩
  exact (rows t ht).trans (rows' (f t) (tasks ▸ mem_map_of_mem ht))

lemma row (mem : t' ∈ s'.tasks) : ∃ t ∈ s.tasks, t.Settles t' := by
  obtain ⟨f, tasks, rows⟩ := h
  rw [tasks] at mem
  obtain ⟨t, ht, rfl⟩ := List.mem_map.mp mem
  exact ⟨t, ht, rows t ht⟩

lemma keys : s'.tasks.map (·.key) = s.tasks.map (·.key) := by
  obtain ⟨f, tasks, rows⟩ := h
  rw [tasks, List.map_map]
  exact map_congr_left fun t ht => (rows t ht).1

lemma uniqueKeys (unique : s.UniqueKeys) : s'.UniqueKeys := by
  rwa [Store.UniqueKeys, h.keys]

lemma has : s'.Has k ↔ s.Has k := by
  rw [Store.Has, h.keys]
  rfl

lemma leased (leased : s'.Leased leaser k) : s.Leased leaser k := by
  obtain ⟨t', mem, atKey, status, lease⟩ := leased
  obtain ⟨t, ht, key, lease', status'⟩ := h.row mem
  refine ⟨t, ht, key ▸ atKey, ?_, lease' ▸ lease⟩
  rcases status' with same | gone
  · rw [← same, status]
  · exact absurd status gone.1

lemma queued (queued : s'.Queued k) : s.Queued k := by
  obtain ⟨t', mem, atKey, status⟩ := queued
  obtain ⟨t, ht, key, -, status'⟩ := h.row mem
  refine ⟨t, ht, key ▸ atKey, ?_⟩
  rcases status' with same | gone
  · rw [← same, status]
  · exact absurd status gone.2

end

end Settles

def Store.Unleased (s : Store) (k : TaskKey) : Prop :=
  ∀ t ∈ s.tasks, t.key = k → t.status ≠ .leased

lemma Store.Unleased.settles (h : s.Unleased k) (settles : Settles s s') : s'.Unleased k := by
  intro t' mem atKey leased
  obtain ⟨t, ht, key, -, status⟩ := settles.row mem
  rcases status with same | gone
  · exact h t ht (key ▸ atKey) (same ▸ leased)
  · exact gone.1 leased

lemma Store.Unleased.not_leased (h : s.Unleased k) (leaser : String) : ¬ s.Leased leaser k := by
  rintro ⟨t, ht, atKey, status, -⟩
  exact h t ht atKey status

section Report
variable {base : TaskKey} {outcome : Outcome} {now : Time} {resolved : Nat}

lemma status_applyRows (rows : List UpdateRow) (now : Time) (t : Task) :
    t.Settles (applyRows rows now t) := by
  refine ⟨applyRows_key now t, applyRows_leaseBy now t, ?_⟩
  rw [applyRows_status]
  cases first : firstOutcome rows t.key with
  | none => exact .inl rfl
  | some o => cases o <;> simp [Outcome.status]

lemma Settles.propagate (h : s.propagate base outcome now = some (s', resolved)) :
    Settles s s' := by
  obtain ⟨rows, -, R, -⟩ := propagate_rewritten h
  exact ⟨_, R.tasks, fun t _ => status_applyRows rows now t⟩

lemma unleased_of_propagate (start : outcome ≠ .met)
    (h : s.propagate base outcome now = some (s', resolved)) : s'.Unleased base := by
  obtain ⟨rows, found, R, -⟩ := propagate_rewritten h
  intro t' mem atKey leased
  rw [R.tasks] at mem
  obtain ⟨t, -, rfl⟩ := mem_map.mp mem
  rw [R.key] at atKey
  have ended := ended_of_base now found start atKey
  rw [leased] at ended
  cases ended

lemma Settles.update {f : Task → Task} (rows : ∀ t ∈ s.tasks, t.key = k → t.Settles (f t)) :
    Settles s (s.update k f) := by
  refine ⟨_, rfl, fun t ht => ?_⟩
  split
  · next atKey => exact rows t ht atKey
  · exact .refl t

section Climb
variable {parentId : List Name} {clock : Nat → Time} {taskId : Name}
  (h : updateTaskStatus parentId s clock taskId outcome = some s')
include h

lemma settles_of_updateTaskStatus : ∃ t resolved,
    s.propagate ⟨parentId, taskId⟩ outcome (clock 0) = some (t, resolved) ∧ Settles t s' :=
  updateTaskStatus_rule .refl (fun before after => before.trans after) .propagate
    (fun _ _ _ => .update fun _ _ _ => ⟨rfl, rfl, .inl rfl⟩) h

lemma Settles.updateTaskStatus : Settles s s' := by
  obtain ⟨t, resolved, propagated, later⟩ := settles_of_updateTaskStatus h
  exact .trans (.propagate propagated) later

lemma unleased_of_updateTaskStatus (start : outcome ≠ .met) :
    s'.Unleased ⟨parentId, taskId⟩ := by
  obtain ⟨t, resolved, propagated, later⟩ := settles_of_updateTaskStatus h
  exact (unleased_of_propagate start propagated).settles later

end Climb

lemma Settles.recordResult (result : FinalResult) (now : Time) :
    Settles s (s.recordResult k result now) := by
  refine .update fun t _ _ => ⟨rfl, rfl, ?_⟩
  split
  · exact .inr (by simp)
  · exact .inl rfl

variable {result : FinalResult} {clock : Nat → Time}

lemma Settles.updateTaskFinalResult (h : updateTaskFinalResult s k result clock = some s') :
    Settles s s' := by
  unfold TaskStore.updateTaskFinalResult at h
  split at h
  · cases h
    refine .update fun t _ _ => ?_
    split
    · exact ⟨rfl, rfl, .inr (by simp)⟩
    · exact .refl t
  · split at h
    · cases h
    · have recorded := Settles.recordResult (s := s) (k := k) result (clock 0)
      split at h
      · cases h
        exact recorded.trans (.of_tasks rfl)
      · exact recorded.trans (.updateTaskStatus h)

lemma unleased_of_report (unique : s.UniqueKeys)
    (h : updateTaskFinalResult s k result clock = some s') : s'.Unleased k := by
  unfold updateTaskFinalResult at h
  split at h
  · cases h
    intro t' mem atKey leased
    obtain ⟨t, -, rfl⟩ := mem_map.mp mem
    dsimp only at atKey leased
    split at leased
    · split at leased
      · cases leased
      · next not => exact not leased
    · next other =>
      rw [if_neg other] at atKey
      exact other atKey
  · split at h
    · cases h
    · next row found =>
      split at h
      · next more =>
        cases h
        intro t' mem atKey leased
        obtain ⟨t, ht, rfl⟩ := mem_map.mp mem
        have own : t.key = k := (recorded_key result (clock 0) t) ▸ atKey
        obtain rfl := eq_of_find unique found ht own
        simp [own, more] at leased
      · exact unleased_of_updateTaskStatus h (outcome_ne_met _)

end Report

lemma Settles.cancelJob (jobId : Name) (now : Time) : Settles s (cancelJob s jobId now) := by
  refine ⟨_, rfl, fun t _ => ?_⟩
  split
  · exact ⟨rfl, rfl, .inr (by simp)⟩
  · exact .refl t

section Queue
variable {leaser : String}

structure Grown (s s' : Store) : Prop where
  unique : s.UniqueKeys → s'.UniqueKeys
  kept : ∀ k, s.Has k → s'.Has k
  leased : ∀ leaser k, s'.Leased leaser k → s.Leased leaser k
  queued : ∀ k, s'.Queued k → s.Queued k ∨ ¬ s.Has k

lemma Grown.refl (s : Store) : Grown s s := ⟨id, fun _ => id, fun _ _ => id, fun _ => .inl⟩

lemma Grown.trans (h : Grown s s') (h' : Grown s' s'') : Grown s s''  where
  unique := h'.unique ∘ h.unique
  kept k := h'.kept k ∘ h.kept k
  leased l k := h.leased l k ∘ h'.leased l k
  queued k queued := (h'.queued k queued).elim (h.queued k) fun fresh => .inr (mt (h.kept k) fresh)

lemma Settles.grown (h : Settles s s') : Grown s s' :=
  ⟨h.uniqueKeys, fun _ => h.has.mpr, fun _ _ => h.leased, fun _ queued => .inl (h.queued queued)⟩

lemma Grown.taken (h : Grown s s') (taken : s.Taken k) : s'.Taken k :=
  ⟨h.kept k taken.1, fun queued => (h.queued k queued).elim taken.2 fun fresh => fresh taken.1⟩

lemma Settles.taken (h : Settles s s') (taken : s.Taken k) : s'.Taken k := h.grown.taken taken

lemma createTask_grown {key : TaskKey} {count : Int}
    (h : createTask s r now = some (s', key, count)) : Grown s s' := by
  obtain ⟨added, name, status, tasks, -, -, rfl, free, -, -, started⟩ := createTask_cases h
  have split : ∀ t ∈ s'.tasks, t ∈ s.tasks ∨ t = r.row name status count now := by
    intro t ht
    rw [tasks] at ht
    simpa using ht
  refine ⟨fun unique => uniqueKeys_append unique free tasks, fun k has => ?_, ?_, ?_⟩
  · rw [Store.Has, tasks, map_append]
    exact mem_append_left _ has
  · rintro leaser k ⟨t, ht, atKey, leased, lease⟩
    rcases split t ht with old | rfl
    · exact ⟨t, old, atKey, leased, lease⟩
    · cases lease
  · rintro k ⟨t, ht, rfl, queueing⟩
    rcases split t ht with old | rfl
    · exact .inl ⟨t, old, rfl, queueing⟩
    · refine .inr fun has => ?_
      obtain ⟨t, ht, atKey⟩ := mem_map.mp has
      have absent := any_key_of_find_none free
      rw [List.any_eq_false] at absent
      exact absent t ht (decide_eq_true atKey)

lemma pollTasksOnce_keys (s : Store) (leaser : String) :
    (pollTasksOnce s leaser).1.tasks.map (·.key) = s.tasks.map (·.key) := by
  simp only [pollTasksOnce, List.map_map]
  refine List.map_congr_left fun t _ => ?_
  simp only [comp_apply]
  split <;> rfl

lemma pollTasksOnce_queued (h : (pollTasksOnce s leaser).1.Queued k) :
    s.Queued k ∧ k ∉ (pollTasksOnce s leaser).2.map (·.key) := by
  obtain ⟨t', mem, atKey, queueing⟩ := h
  obtain ⟨t, ht, rfl⟩ := mem_map.mp mem
  dsimp only at atKey queueing
  split at queueing
  · cases queueing
  · next unchosen =>
    rw [if_neg unchosen] at atKey
    refine ⟨⟨t, ht, atKey, queueing⟩, fun taken => unchosen ?_⟩
    simp only [pollTasksOnce, List.map_map, List.mem_map, List.mem_filter] at taken
    obtain ⟨u, ⟨-, chosen⟩, same⟩ := taken
    rw [atKey, ← same]
    exact chosen

lemma pollTasksOnce_leased (h : (pollTasksOnce s leaser).1.Leased identity k) :
    s.Leased identity k ∨ identity = leaser ∧ k ∈ (pollTasksOnce s leaser).2.map (·.key) := by
  obtain ⟨t', mem, atKey, leased, lease⟩ := h
  obtain ⟨t, ht, rfl⟩ := mem_map.mp mem
  split at lease
  · next chosen =>
    rw [if_pos chosen] at atKey
    refine .inr ⟨(Option.some.inj lease).symm, mem_map.mpr ⟨_, ?_, atKey⟩⟩
    exact mem_map_of_mem (mem_filter.mpr ⟨ht, chosen⟩)
  · next unchosen =>
    rw [if_neg unchosen] at atKey leased
    exact .inl ⟨t, ht, atKey, leased, lease⟩

lemma pollTasksOnce_batch (leaser : String) (unique : s.UniqueKeys) :
    ((pollTasksOnce s leaser).2.map (·.key)).Nodup ∧ ∀ k ∈ (pollTasksOnce s leaser).2.map (·.key),
        s.Queued k ∧ (pollTasksOnce s leaser).1.Taken k := by
  constructor
  · simp only [pollTasksOnce, List.map_map]
    exact (List.Nodup.sublist (List.filter_sublist.map _) unique)
  · intro k mem
    obtain ⟨t, ht, rfl⟩ := mem_map.mp mem
    obtain ⟨before, known, atKey, queueing, -⟩ := polled_of_mem unique ht
    refine ⟨⟨before, known, atKey, queueing⟩, ?_, fun queued => ?_⟩
    · rw [Store.Has, pollTasksOnce_keys]
      exact atKey ▸ mem_map_of_mem known
    · exact (pollTasksOnce_queued queued).2 mem

lemma pollTasksOnce_taken (taken : s.Taken k) : (pollTasksOnce s leaser).1.Taken k := by
  refine ⟨?_, fun queued => taken.2 (pollTasksOnce_queued queued).1⟩
  rw [Store.Has, pollTasksOnce_keys]
  exact taken.1

def Task.released (expired : List String) (t : Task) : Bool :=
  t.status = .leased && t.leaseBy.any (· ∈ expired)

lemma releaseLeases_keys (s : Store) (expired : List String) :
    (releaseLeases s expired).tasks.map (·.key) = s.tasks.map (·.key) := by
  simp only [releaseLeases, List.map_map]
  refine List.map_congr_left fun t _ => ?_
  simp only [comp_apply]
  split <;> rfl

lemma releaseLeases_taken {expired : List String} (taken : s.Taken k)
    (kept : ∀ t ∈ s.tasks, t.released expired = true → t.key ≠ k) :
    (releaseLeases s expired).Taken k := by
  refine ⟨?_, ?_⟩
  · rw [Store.Has, releaseLeases_keys]
    exact taken.1
  · rintro ⟨t', mem, atKey, queueing⟩
    obtain ⟨t, ht, rfl⟩ := mem_map.mp mem
    split at atKey
    · next released => exact kept t ht released atKey
    · next held =>
      rw [if_neg held] at queueing
      exact taken.2 ⟨t, ht, atKey, queueing⟩

lemma releaseLeases_leased {expired : List String}
    (h : (releaseLeases s expired).Leased identity k) : s.Leased identity k := by
  obtain ⟨t', mem, atKey, leased, lease⟩ := h
  obtain ⟨t, ht, rfl⟩ := mem_map.mp mem
  split at lease
  · cases lease
  · next kept =>
    rw [if_neg kept] at atKey leased
    exact ⟨t, ht, atKey, leased, lease⟩

lemma reconnectTask_cases (h : reconnectTask s k leaser = some s') :
    s'.tasks.map (·.key) = s.tasks.map (·.key) ∧ (∀ j, s'.Queued j → s.Queued j) ∧
      ∀ identity j, s'.Leased identity j → s.Leased identity j ∨ j = k ∧ identity = leaser := by
  unfold reconnectTask at h
  split at h
  · cases h
    refine ⟨?_, ?_, ?_⟩
    · simp only [Store.update, List.map_map]
      refine List.map_congr_left fun t _ => ?_
      simp only [comp_apply]
      split <;> rfl
    · rintro j ⟨t', mem, atKey, queueing⟩
      obtain ⟨t, ht, rfl⟩ := mem_map.mp mem
      refine ⟨t, ht, ?_, ?_⟩
      · split at atKey <;> exact atKey
      · split at queueing <;> exact queueing
    · rintro identity j ⟨t', mem, atKey, leased, lease⟩
      obtain ⟨t, ht, rfl⟩ := mem_map.mp mem
      split at lease
      · next own =>
        rw [if_pos own] at atKey
        exact .inr ⟨atKey.symm.trans own, (Option.some.inj lease).symm⟩
      · next other =>
        rw [if_neg other] at atKey leased
        exact .inl ⟨t, ht, atKey, leased, lease⟩
  · cases h

end Queue

/-- Each task has one row, and a broker that holds it did so before, took it from the queue by a
poll, or has reconnected it. -/
def HandedOut (s s' : Store) (op : JobOp) : Prop :=
  s'.UniqueKeys ∧ ∀ leaser k, s'.Leased leaser k → s.Leased leaser k ∨
    (op = .store (.poll leaser) ∧ s.Queued k) ∨ op = .reconnect k leaser

lemma handedOut_of_jobStep (unique : s.UniqueKeys) (h : jobStep s op = some s') :
    HandedOut s s' op := by
  cases op with
  | store op =>
    cases op with
    | create r now =>
      obtain ⟨_, created, rfl⟩ := map_eq_some_iff.mp h
      have G := createTask_grown created
      exact ⟨G.unique unique, fun l k leased => .inl (G.leased l k leased)⟩
    | poll leaser =>
      cases h
      refine ⟨by rwa [Store.UniqueKeys, pollTasksOnce_keys], fun l k leased => ?_⟩
      refine (pollTasksOnce_leased leased).imp_right fun polled => .inl ?_
      exact ⟨polled.1 ▸ rfl, ((pollTasksOnce_batch leaser unique).2 k polled.2).1⟩
    | report =>
      have S := Settles.updateTaskFinalResult h
      exact ⟨S.uniqueKeys unique, fun _ _ leased => .inl (S.leased leased)⟩
  | cancelJob jobId now =>
    cases h
    have S := Settles.cancelJob (s := s) jobId now
    exact ⟨S.uniqueKeys unique, fun _ _ leased => .inl (S.leased leased)⟩
  | release =>
    cases h
    refine ⟨by rwa [Store.UniqueKeys, releaseLeases_keys], fun _ _ leased => ?_⟩
    exact .inl (releaseLeases_leased leased)
  | reconnect =>
    obtain ⟨keys, -, leases⟩ := reconnectTask_cases h
    refine ⟨by rwa [Store.UniqueKeys, keys], fun l j leased => ?_⟩
    exact (leases l j leased).imp_right fun own => .inr (by rw [own.1, own.2])

/-- This is so whatever is done to the store and in whatever order. -/
theorem lease_gained {s t : Store} {op : JobOp} (h : Reachable jobStep Any .empty s)
    (taken : jobStep s op = some t) : HandedOut s t op := by
  have unique : s.UniqueKeys := h.invariant (I := Store.UniqueKeys) (by exact nodup_nil)
    fun _ _ _ unique _ taken => (handedOut_of_jobStep unique taken).1
  exact handedOut_of_jobStep unique taken

theorem lease_gained_poll : ∃ s t, Reachable jobStep Any .empty s ∧
    jobStep s (.store (.poll "b")) = some t ∧ t.Leased "b" ⟨[], "a"⟩ ∧
      HandedOut s t (.store (.poll "b")) := by
  refine (exists_of_run _ _ _ [.store (request "a" [])] _ ?_).imp fun s ⟨reached, leased⟩ =>
    ⟨(pollTasksOnce s "b").1, reached, rfl, leased, lease_gained reached rfl⟩
  decide +kernel

end Velda.TaskStore
