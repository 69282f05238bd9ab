import Velda.TaskStore.Finality

/-! The status callback. A pass and `CancelJob` announce every task they end, once and with
the status it ends with. A task that is refused at its creation, or that reports that it
was cancelled, ends without an announcement. -/
namespace Velda.TaskStore
open Lib List Option Store

variable {s s' : Store} {k : TaskKey} {op : JobOp}

/-- Results are for tasks that have not ended, and no task ends silently. -/
def Announcing (s : Store) (op : JobOp) : Prop := Guarded s op ∧ Voiced s op

instance (s : Store) (op : JobOp) : Decidable (Announcing s op) :=
  inferInstanceAs (Decidable (_ ∧ _))

lemma countP_key_unique (unique : s.UniqueKeys) (p : Task → Bool) :
    s.tasks.countP (fun t => t.key = k && p t) =
      match s.find k with
      | some t => if p t then 1 else 0
      | none => 0 := by
  unfold find Store.UniqueKeys at *
  generalize s.tasks = rows at unique ⊢
  induction rows with
  | nil => rfl
  | cons head rest ih =>
    rw [map_cons, nodup_cons] at unique
    rw [countP_cons, List.find?_cons, ih unique.2]
    by_cases atKey : head.key = k
    · have none : rest.find? (·.key = k) = none := by
        refine List.find?_eq_none.mpr fun t ht same => unique.1 ?_
        rw [atKey, ← of_decide_eq_true same]
        exact mem_map_of_mem ht
      simp [atKey, none]
    · simp [atKey]

lemma createTask_announced {key : TaskKey} {count : Int}
    (h : createTask s r now = some (s', key, count)) : s'.announced = s.announced := by
  obtain ⟨met, eq, -⟩ := addDownstreams_eq r.dependencyRows s 0
  rw [createTask, eq] at h
  obtain ⟨name, -, inserted⟩ := map_eq_some_iff.mp h
  cases inserted
  rfl

lemma statusOf_createTask {key : TaskKey} {count : Int} {status : Status}
    (accepted : r.dependencyRows.any s.refuses = false)
    (h : createTask s r now = some (s', key, count)) (ended : status.terminal = true)
    (found : s'.statusOf k = some status) : s.statusOf k = some status := by
  obtain ⟨t', row', rfl⟩ := map_eq_some_iff.mp found
  cases row : s.find k with
  | some t =>
    cases (find_createTask h row).symm.trans row'
    rw [statusOf, row, map_some]
  | none =>
    obtain ⟨added, name, status, tasks, -, -, -, -, -, -, started⟩ := createTask_cases h
    rw [find, tasks, List.find?_append] at row'
    change (s.find k).or _ = _ at row'
    rw [row, none_or] at row'
    have new := mem_singleton.mp (mem_of_find?_eq_some row')
    rcases started with rfl | ⟨-, refused⟩
    · rw [new] at ended
      cases ended
    · rw [accepted] at refused
      cases refused

lemma announced_jobStep (S : Sound s) (ok : Announcing s op) (h : jobStep s op = some s') :
    ∃ new, s'.announced = s.announced ++ new ∧ ∀ k status, status.terminal = true →
      new.count (k, statusStrToProto status 0) =
        if s.statusOf k ≠ some status ∧ s'.statusOf k = some status then 1 else 0 := by
  obtain ⟨guarded, voiced⟩ := ok
  by_cases creates : ∃ r now, op = .store (.create r now)
  · obtain ⟨r, now, rfl⟩ := creates
    obtain ⟨⟨m, key, count⟩, created, rfl⟩ := map_eq_some_iff.mp h
    refine ⟨[], by rw [createTask_announced created, append_nil], fun k status ended => ?_⟩
    rw [count_nil, if_neg]
    rintro ⟨other, found⟩
    exact other (statusOf_createTask voiced created ended found)
  · obtain ⟨F, advances, told⟩ := Advances.jobStep S guarded h fun r now eq => creates ⟨r, now, eq⟩
    obtain ⟨new, announced, counts⟩ := told voiced
    refine ⟨new, announced, fun k status ended => ?_⟩
    have count := counts k status ended
    simp only [Bool.and_assoc] at count
    rw [count, countP_key_unique S.unique, statusOf, statusOf, advances.find]
    cases row : s.find k with
    | none => simp
    | some t =>
      simp only [map_some, ne_eq, Option.some.injEq, Bool.and_eq_true, Bool.not_eq_true',
        decide_eq_true_eq]
      refine if_congr (and_congr_left fun ends => ?_) rfl rfl
      constructor
      · rintro unended rfl
        rw [ended] at unended
        cases unended
      · intro other
        by_contra done
        rw [Bool.not_eq_false] at done
        exact other ((advances.stays t (find_mem row) done).symm.trans ends)

/-- What was announced about a task since it was seen running: its end, if it has ended. -/
def ToldSince (s m : Store) (k : TaskKey) : Prop :=
  ∃ new, m.announced = s.announced ++ new ∧ ∃ current ∈ m.statusOf k,
    ∀ status, status.terminal = true →
      new.count (k, statusStrToProto status 0) = if status = current then 1 else 0

lemma toldSince_jobStep (S : Sound m) (told : ToldSince s m k) (ok : Announcing m op)
    (h : jobStep m op = some m') : ToldSince s m' k := by
  obtain ⟨new, announced, current, found, counts⟩ := told
  obtain ⟨new', announced', counts'⟩ := announced_jobStep S ok h
  obtain ⟨t, row, rfl⟩ := map_eq_some_iff.mp found
  obtain ⟨t', row'⟩ : ∃ t', m'.find k = some t' := by
    rcases exists_row_of_jobStep S ok.1 h row with same | ⟨F, -, moved⟩
    · exact ⟨t, same⟩
    · exact ⟨F t, moved⟩
  refine ⟨new ++ new', by rw [announced', announced, append_assoc], t'.status, ?_, ?_⟩
  · rw [statusOf, row']
    rfl
  intro status ended
  rw [count_append, counts status ended, counts' k status ended, statusOf,
    statusOf, row, row']
  simp only [map_some, Option.some.injEq]
  cases before : t.status.terminal with
  | true =>
    have kept := statusOf_jobStep S ok.1 h before found
    rw [statusOf, row', map_some, Option.some.injEq] at kept
    rw [kept]
    by_cases same : t.status = status
    · simp
    · simp
  | false =>
    have other : t.status ≠ status := by
      rintro rfl
      rw [ended] at before
      cases before
    simp [Ne.symm other, eq_comm]

/-- Where no task is refused at its creation, no leased task reports that it was cancelled and
results are for tasks that have not ended, every end of a task is announced once, with its
status, and someone who saw the task running is told of its end. -/
theorem ends_announced (h : Reachable jobStep Announcing .empty s) :
    (∀ op s', Announcing s op → jobStep s op = some s' →
      ∃ new, s'.announced = s.announced ++ new ∧ ∀ k status, status.terminal = true →
        new.count (k, statusStrToProto status 0) =
          if s.statusOf k ≠ some status ∧ s'.statusOf k = some status then 1 else 0) ∧
    ∀ s', Reachable jobStep Announcing s s' → ∀ k, ∀ before ∈ s.statusOf k,
      before.terminal = false → ∃ new, s'.announced = s.announced ++ new ∧
        ∃ current ∈ s'.statusOf k, ∀ status, status.terminal = true →
          new.count (k, statusStrToProto status 0) = if status = current then 1 else 0 := by
  have S := sound_of_reachable (h.weaken fun _ _ ok => ok.1)
  refine ⟨fun op s' ok taken => announced_jobStep S ok taken, ?_⟩
  intro s' later k before found running
  have start : ToldSince s s k := by
    refine ⟨[], (append_nil _).symm, before, found, fun status ended => ?_⟩
    rw [count_nil, if_neg]
    rintro rfl
    rw [ended] at running
    cases running
  have both := later.invariant (I := fun m => Sound m ∧ ToldSince s m k) ⟨S, start⟩
    fun m op m' I ok taken => ⟨I.1.jobStep ok.1 taken, toldSince_jobStep I.1 I.2 ok taken⟩
  exact both.2

theorem ends_announced_chain :
    ∃ s, Reachable jobStep Announcing .empty s ∧ s.statusOf ⟨[], "b"⟩ = some .queueing ∧
      ∃ s', jobStep s (.store (exits "a" 1)) = some s' ∧ ∃ new, s'.announced = s.announced ++ new ∧
          new.count (⟨[], "b"⟩, TaskStatus.failedUpstream) = 1 := by
  obtain ⟨s, reached, queueing, ok, s', taken, failed⟩ := exists_of_run jobStep
    Announcing .empty
    [.store (request "a" []), .store (request "b" [("a", .success)]), polls]
    (fun s => s.statusOf ⟨[], "b"⟩ = some .queueing ∧ Announcing s (.store (exits "a" 1)) ∧
      ∃ s' ∈ jobStep s (.store (exits "a" 1)), s'.statusOf ⟨[], "b"⟩ = some .failedUpstream)
    (by decide)
  obtain ⟨new, announced, counts⟩ := (ends_announced reached).1 _ s' ok taken
  refine ⟨s, reached, queueing, s', taken, new, announced, ?_⟩
  have count := counts ⟨[], "b"⟩ .failedUpstream rfl
  rwa [if_pos ⟨by rw [queueing]; decide, failed⟩] at count

/-- A task that is leased reports that it was cancelled; a task is created after the failure of
its upstream. Nothing is announced. -/
theorem ends_silent :
    (∃ s, Reachable jobStep Guarded .empty s ∧ s.statusOf ⟨[], "a"⟩ = some .leased ∧
      ∃ s' ∈ jobStep s (.store (.report ⟨[], "a"⟩ ⟨⟨none, 0⟩, 0, true⟩ fun i => i + 2)),
        s'.statusOf ⟨[], "a"⟩ = some .cancelled ∧ s'.announced = s.announced) ∧
    ∃ s, Reachable jobStep Guarded .empty s ∧
      ∃ s' ∈ jobStep s (.store (request "b" [("a", .success)])),
        s'.statusOf ⟨[], "b"⟩ = some .failedUpstream ∧ s'.announced = s.announced := by
  constructor
  · exact exists_of_run jobStep Guarded .empty
      [.store (request "a" []), polls] _ (by decide)
  · exact exists_of_run jobStep Guarded .empty
      [.store (request "a" []), polls, .store (exits "a" 1)] _ (by decide)

end Velda.TaskStore
