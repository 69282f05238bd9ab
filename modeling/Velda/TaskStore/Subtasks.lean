import Velda.TaskStore.Turns

/-! Subtasks counted in the row of their parent. A pass of `updateTaskStatus` ends open
siblings and adds their number to `completed_children` of the parent; a parent that
has reported goes on waiting only while that number is below `total_children`. A
task refused at creation, cancelled with its job or by its own report ends without
being counted. -/
namespace Velda.TaskStore
open Lib List Store

variable {s s' : Store} {k base : TaskKey} {outcome : Outcome} {rows : List UpdateRow}

def Store.ended (s : Store) (k : TaskKey) : Nat := (s.children k).countP (·.status.terminal)

def Store.hasParent (s : Store) (k : TaskKey) : Bool :=
  s.tasks.any (·.key.childrenId = k.parentId)

variable {t : Task} {now : Time}

lemma hasParent_of_child (ht : t ∈ s.tasks) (hc : c ∈ s.children t.key) :
    s.hasParent c.key = true :=
  any_eq_true.mpr ⟨t, ht, by simpa using (mem_children.mp hc).2.symm⟩

section Rewritten
variable {f : Task → Task}

lemma countP_grown {l : List Task} {p q : Task → Bool} (grows : ∀ t ∈ l, p t = true → q t = true) :
    l.countP q = l.countP p + l.countP fun t => !p t && q t := by
  induction l with
  | nil => rfl
  | cons t rest ih =>
    simp only [countP_cons, ih fun t ht => grows t (mem_cons_of_mem _ ht)]
    cases before : p t with
    | true =>
      simp only [grows t mem_cons_self before, Bool.not_true, Bool.false_and]
      simp only [Bool.false_eq_true, if_false]
      omega
    | false =>
      simp only [Bool.not_false, Bool.true_and, Bool.false_eq_true, if_false]
      omega

lemma Rewritten.ended (R : Rewritten s s' f)
    (stays : ∀ t ∈ s.tasks, t.status.terminal = true → (f t).status.terminal = true)
    (k : TaskKey) : s'.ended k = s.ended k +
      (s.children k).countP fun t => !t.status.terminal && (f t).status.terminal := by
  rw [Store.ended, R.children, countP_map, Store.ended]
  exact countP_grown fun t ht => stays t (mem_children.mp ht).1

end Rewritten

/-- A task that has reported has ended, or waits for more children than have ended. -/
def Awaits (s : Store) (t : Task) : Prop :=
  t.result.isSome → t.status.terminal = true ∨ t.status = .runningSubtasks ∧
    ∃ n ∈ t.totalChildren, t.completedChildren < n ∧ n ≤ (s.children t.key).length

/-- The children are counted; `settling` is the task the next pass starts from. -/
structure Tally (s : Store) (settling : Option TaskKey) : Prop where
  unique : s.UniqueKeys
  named : ∀ t ∈ s.tasks, t.key ≠ ⟨[], ""⟩
  siblings : ∀ d ∈ s.deps, d.upstream.parentId = d.downstream.parentId
  unresolved : ∀ t ∈ s.tasks, t.status.terminal = false → t.resolveTime = none
  counted : ∀ t ∈ s.tasks, t.completedChildren = s.ended t.key
  awaits : ∀ t ∈ s.tasks, some t.key ≠ settling → Awaits s t

section Rows
variable {f : Task → Task} {settling settling' : Option TaskKey}

lemma Tally.rewritten (T : Tally s settling) (R : Rewritten s s' f)
    (stays : ∀ t ∈ s.tasks, t.status.terminal = true → (f t).status.terminal = true)
    (unresolved : ∀ t ∈ s.tasks, (f t).status.terminal = false → (f t).resolveTime = none)
    (counts : ∀ t ∈ s.tasks, (f t).completedChildren = t.completedChildren +
      (s.children t.key).countP fun c => !c.status.terminal && (f c).status.terminal)
    (awaits : ∀ t ∈ s.tasks, some t.key ≠ settling' → Awaits s' (f t)) : Tally s' settling' := by
  refine ⟨R.uniqueKeys T.unique, ?_, R.deps ▸ T.siblings, ?_, ?_, ?_⟩
  all_goals
    rw [R.tasks]
    refine forall_mem_map.mpr fun t ht => ?_
  · rw [R.key]
    exact T.named t ht
  · exact unresolved t ht
  · rw [R.key, R.ended stays, counts t ht, T.counted t ht]
  · rw [R.key]
    exact awaits t ht

/-- What an operation that counts nothing may do to a row: nothing, end a task without a
parent, or move it between the queue and a lease. -/
def Uncounted (s : Store) (t t' : Task) : Prop :=
  t'.completedChildren = t.completedChildren ∧ t'.totalChildren = t.totalChildren ∧
    t'.result = t.result ∧
    (t'.status = t.status ∧ t'.resolveTime = t.resolveTime ∨
      t.status.terminal = false ∧ t'.status.terminal = true ∧ s.hasParent t.key = false ∨
      (t.status = .queueing ∨ t.status = .leased) ∧ (t'.status = .queueing ∨ t'.status = .leased) ∧
        t'.resolveTime = t.resolveTime)

lemma Uncounted.refl (t : Task) : Uncounted s t t := ⟨rfl, rfl, rfl, .inl ⟨rfl, rfl⟩⟩

lemma Uncounted.stays (h : Uncounted s t t') (ended : t.status.terminal = true) :
    t'.status.terminal = true := by
  obtain ⟨-, -, -, ⟨same, -⟩ | ⟨-, done, -⟩ | ⟨waiting, -⟩⟩ := h
  · rw [same, ended]
  · exact done
  · rcases waiting with h | h <;> simp [h, Status.terminal] at ended

lemma Tally.uncounted (T : Tally s none) (R : Rewritten s s' f)
    (rows : ∀ t ∈ s.tasks, Uncounted s t (f t)) : Tally s' none := by
  refine T.rewritten R (fun t ht => (rows t ht).stays) ?_ ?_ ?_
  · intro t ht running
    obtain ⟨-, -, -, ⟨same, resolve⟩ | ⟨-, done, -⟩ | ⟨waiting, -, resolve⟩⟩ := rows t ht
    · rw [resolve]
      exact T.unresolved t ht (same ▸ running)
    · rw [done] at running
      cases running
    · rw [resolve]
      refine T.unresolved t ht ?_
      rcases waiting with h | h <;> rw [h] <;> rfl
  · intro t ht
    rw [(rows t ht).1, countP_eq_zero.mpr, Nat.add_zero]
    intro c hc ends
    simp only [Bool.and_eq_true, Bool.not_eq_true'] at ends
    obtain ⟨-, -, -, ⟨same, -⟩ | ⟨-, -, alone⟩ | ⟨-, waiting, -⟩⟩ := rows c (mem_children.mp hc).1
    · rw [same, ends.1] at ends
      cases ends.2
    · rw [hasParent_of_child ht hc] at alone
      cases alone
    · rcases waiting with h | h <;> simp [h, Status.terminal] at ends
  · intro t ht _ reported
    obtain ⟨completed, total, result, moved⟩ := rows t ht
    have before := T.awaits t ht (by simp) (result ▸ reported)
    rw [completed, total, R.key, R.children, length_map]
    rcases moved with ⟨same, -⟩ | ⟨-, done, -⟩ | ⟨waiting, -⟩
    · rw [same]
      exact before
    · exact .inl done
    · rcases waiting with h | h <;> simp [h, Status.terminal] at before

end Rows

/-- What a pass needs to know of the rows: one for each key, dependencies between siblings, and
no resolve time before the end. -/
structure Sound (s : Store) : Prop where
  unique : s.UniqueKeys
  siblings : ∀ d ∈ s.deps, d.upstream.parentId = d.downstream.parentId
  unresolved : ∀ t ∈ s.tasks, t.status.terminal = false → t.resolveTime = none

lemma Tally.sound (T : Tally s settling) : Sound s :=
  ⟨T.unique, T.siblings, T.unresolved⟩

section Pass
variable (S : Sound s) (found : s.downstreamUpdates base outcome = some rows)
  (running : ∀ t ∈ s.tasks, t.key = base → t.status.terminal = false)
include S found running

lemma open_of_touched (ht : t ∈ s.tasks) (h : touched rows t = true) :
    t.status.terminal = false ∧ t.key.parentId = base.parentId := by
  obtain ⟨r, hr, own⟩ := any_eq_true.mp h
  have own : r.key = t.key := of_decide_eq_true own
  rcases row_cases found hr with rfl | ⟨d, dep, c, o, chain, isOpen, rfl⟩
  · exact ⟨running t ht own.symm, by rw [← own]⟩
  · change d.downstream = t.key at own
    rw [own, isOpen_of_mem S.unique ht] at isOpen
    refine ⟨by rw [terminal_eq_not_open, isOpen]; rfl, ?_⟩
    rw [← own, ← S.siblings d dep, chain.parentId S.siblings]

lemma applyRows_cases (ht : t ∈ s.tasks) (now : Time) :
    ((applyRows rows now t).status = t.status ∧
        (applyRows rows now t).resolveTime = t.resolveTime) ∨
      (touched rows t = true ∧ t.status.terminal = false ∧ t.key.parentId = base.parentId ∧
        (applyRows rows now t).status.terminal = true ∧
        (applyRows rows now t).resolveTime = some now) := by
  cases h : touched rows t with
  | false => simp [applyRows, h]
  | true =>
    obtain ⟨running, sibling⟩ := open_of_touched S found running ht h
    cases first : firstOutcome rows t.key with
    | none => simp [applyRows, h, first, Outcome.status]
    | some o =>
      have done := terminal_of_finished (finished_of_outcome t.status (firstOutcome_ne_met first))
      exact .inr ⟨rfl, running, sibling, by simpa [applyRows, h, first] using done,
        by simp [applyRows, h, first, S.unresolved t ht running]⟩

lemma resolved_iff (ht : t ∈ s.tasks) (now : Time) :
    (touched rows t && decide ((applyRows rows now t).resolveTime = some now)) =
      (!t.status.terminal && (applyRows rows now t).status.terminal) := by
  rcases applyRows_cases S found running ht now with
    ⟨same, resolve⟩ | ⟨isTouched, running', -, done, resolve⟩
  · rw [same, resolve]
    cases h : touched rows t with
    | false => cases t.status.terminal <;> rfl
    | true =>
      obtain ⟨running', -⟩ := open_of_touched S found running ht h
      rw [S.unresolved t ht running', running']
      rfl
  · rw [isTouched, resolve, running', done]
    simp

/-- A pass adds what it counted to the ended children of the parent, and to nobody else's. -/
lemma countP_ended (now : Time) : (s.children t.key).countP (fun c => !c.status.terminal &&
        (applyRows rows now c).status.terminal) = if t.key.childrenId = base.parentId then
        s.tasks.countP fun c => touched rows c && (applyRows rows now c).resolveTime = some now
      else 0 := by
  have counts : s.tasks.countP (fun c => touched rows c &&
      decide ((applyRows rows now c).resolveTime = some now)) =
      s.tasks.countP fun c => !c.status.terminal && (applyRows rows now c).status.terminal :=
    countP_congr fun c hc => by rw [resolved_iff S found running hc now]
  have sibling : ∀ c ∈ s.tasks, (!c.status.terminal && (applyRows rows now c).status.terminal) =
      true → c.key.parentId = base.parentId := by
    intro c hc ends
    rcases applyRows_cases S found running hc now with ⟨same, -⟩ | ⟨-, -, sibling, -⟩
    · simp [same] at ends
    · exact sibling
  rw [children, countP_filter, counts]
  split
  · next parent =>
    refine countP_congr fun c hc => ?_
    rw [Bool.and_eq_true, decide_eq_true_eq, parent, and_iff_left_iff_imp]
    exact sibling c hc
  · next other =>
    rw [countP_eq_zero]
    intro c hc both
    rw [Bool.and_eq_true, decide_eq_true_eq] at both
    exact other (both.2.symm.trans (sibling c hc both.1))

end Pass

def Store.running (s : Store) (base : TaskKey) : Prop :=
  ∀ t ∈ s.tasks, t.key = base → t.status.terminal = false

lemma ended_of_base (now : Time) (found : s.downstreamUpdates base outcome = some rows)
    (start : outcome ≠ .met) (atBase : t.key = base) :
    (applyRows rows now t).status.terminal = true := by
  rw [applyRows_status, atBase, firstOutcome_base found start]
  exact terminal_of_finished (finished_of_outcome t.status start)

lemma Tally.turned {next : Option Outcome} (T : Tally s (some base)) (running : s.running base)
    (start : outcome ≠ .met) (turn : Turned s s' base outcome now rows next) (settles : ∀ t ∈
      s'.tasks, t.key.childrenId = base.parentId → some t.key ≠ settling → t.complete = false) :
    Tally s' settling := by
  have cases := fun t (ht : t ∈ s.tasks) => applyRows_cases T.sound turn.found running ht now
  refine T.rewritten turn.rewritten ?_ ?_ ?_ ?_
  · intro t ht ended
    rw [passed_status]
    rcases cases t ht with ⟨same, -⟩ | ⟨-, running, -⟩
    · rw [same, ended]
    · rw [ended] at running
      cases running
  · intro t ht running
    rw [passed_status] at running
    rw [passed_resolveTime]
    rcases cases t ht with ⟨same, resolve⟩ | ⟨-, -, -, ended, -⟩
    · rw [resolve]
      exact T.unresolved t ht (same ▸ running)
    · rw [ended] at running
      cases running
  · intro t ht
    simp only [passed_completedChildren, passed_status,
      countP_ended T.sound turn.found running now]
  · intro t ht notSettling reported
    rw [passed_result] at reported
    rw [passed_status, passed_totalChildren, passed_key, turn.rewritten.children, length_map]
    rcases cases t ht with ⟨same, -⟩ | ⟨-, -, -, ended, -⟩
    swap
    · exact .inl ended
    by_cases atBase : t.key = base
    · exact .inl (ended_of_base _ turn.found start atBase)
    rw [same]
    refine (T.awaits t ht (by simpa using atBase) reported).imp_right ?_
    rintro ⟨waiting, n, total, below, bound⟩
    refine ⟨waiting, n, total, ?_, bound⟩
    by_cases parent : t.key.childrenId = base.parentId
    · have short := settles _ (turn.rewritten.mem ht) (by rw [passed_key]; exact parent)
        (by rw [passed_key]; exact notSettling)
      rw [Task.complete, passed_status, same, waiting, passed_totalChildren, total] at short
      simpa using short
    · rw [passed_completedChildren, if_neg parent]
      exact below

lemma Tally.pass {next : Option Outcome} (T : Tally s (some base)) (running : s.running base)
    (start : outcome ≠ .met) (h : s.pass base outcome now = some (s', next)) :
    (next = none → Tally s' none) ∧ ∀ o, next = some o → ∃ parent,
      parent.childrenId = base.parentId ∧ Tally s' (some parent) ∧ s'.running parent ∧
        o ≠ .met := by
  obtain ⟨rows, turn⟩ := turned_of_pass T.unique T.named h
  refine ⟨fun last => ?_, fun o climbed => ?_⟩
  · exact T.turned running start turn fun t ht parent _ => turn.waits last t ht parent
  · obtain ⟨row, mem, parent, complete, rfl⟩ := turn.climbs o climbed
    refine ⟨row.key, parent, ?_, ?_, ?_⟩
    · refine T.turned running start turn fun t ht parent' notSettling => ?_
      exact absurd (childrenId_inj (parent'.trans parent.symm)) (by simpa using notSettling)
    · intro t ht atKey
      have unique := turn.rewritten.uniqueKeys T.unique
      obtain rfl := eq_of_find unique (find_of_mem unique mem) ht atKey
      simp only [Task.complete, Bool.and_eq_true, decide_eq_true_eq] at complete
      rw [complete.1]
      rfl
    · unfold childrenOutcome
      split <;> simp

lemma Tally.updateTaskStatus {clock : Nat → Time} (T : Tally s (some base))
    (running : s.running base) (start : outcome ≠ .met)
    (h : updateTaskStatus base.parentId s clock base.taskId outcome = some s') : Tally s' none :=
  updateTaskStatus_induction (P := fun s k o => Tally s (some k) ∧ s.running k ∧ o ≠ .met)
    (Q := (Tally · none)) (fun before passed => before.1.pass before.2.1 before.2.2 passed)
    ⟨T, running, start⟩ h

section Recorded
variable (unique : s.UniqueKeys) (result : FinalResult) (now : Time) {row : Task}
  (found : s.find k = some row) (unended : row.status.terminal = false)
include unique found unended

lemma terminal_recorded (ht : t ∈ s.tasks) :
    (s.recorded k result now t).status.terminal = t.status.terminal := by
  unfold recorded
  split
  · next atKey =>
    rw [eq_of_find unique found ht atKey, unended]
    split
    · rfl
    · exact unended
  · rfl

lemma running_recordResult : (s.recordResult k result now).running k := by
  have R := recordResult_rewritten (s := s) (k := k) result now
  rw [Store.running, R.tasks]
  refine forall_mem_map.mpr fun t ht atKey => ?_
  rw [R.key] at atKey
  rw [terminal_recorded unique result now found unended ht, eq_of_find unique found ht atKey,
    unended]

end Recorded

lemma Tally.recordResult (T : Tally s none) (result : FinalResult) (now : Time) {row : Task}
    (found : s.find k = some row) (running : row.status.terminal = false) :
    (s.recordResult k result now).running k ∧ Tally (s.recordResult k result now)
        (if (s.children k).length > row.completedChildren then none else some k) := by
  have own : ∀ t ∈ s.tasks, t.key = k → t = row := fun t => eq_of_find T.unique found
  have R := recordResult_rewritten (s := s) (k := k) result now
  have terminal (t) (ht : t ∈ s.tasks) := terminal_recorded T.unique result now found running ht
  constructor
  · exact running_recordResult T.unique result now found running
  · refine T.rewritten R ?_ ?_ ?_ ?_
    · intro t ht ended
      rw [terminal t ht, ended]
    · intro t ht unended
      rw [recorded_resolveTime]
      exact T.unresolved t ht (terminal t ht ▸ unended)
    · intro t ht
      rw [recorded_completedChildren, countP_eq_zero.mpr, Nat.add_zero]
      intro c hc
      rw [terminal c (mem_children.mp hc).1]
      cases c.status.terminal <;> simp
    · intro t ht notSettling
      have same := T.awaits t ht (by simp)
      rw [Awaits, R.children, length_map, R.key]
      unfold recorded
      split
      · next atKey =>
        obtain rfl := own t ht atKey
        intro _
        have more : (s.children k).length > t.completedChildren := by
          by_contra enough
          rw [if_neg enough, atKey] at notSettling
          exact notSettling rfl
        exact .inr ⟨if_pos more, _, rfl, more, by rw [atKey]⟩
      · exact same

lemma Tally.updateTaskFinalResult {clock : Nat → Time} (T : Tally s none)
    (finishes : result.cancelled = false → ∀ row ∈ s.find k, row.status.terminal = false)
    (cancels : result.cancelled = true → s.statusOf k = some .leased → s.hasParent k = false)
    (h : updateTaskFinalResult s k result clock = some s') : Tally s' none := by
  unfold TaskStore.updateTaskFinalResult at h
  split at h
  · next cancelled =>
    cases h
    refine T.uncounted (f := fun t => if t.key = k then _ else t)
      ⟨rfl, rfl, fun t => by split <;> [split; skip] <;> rfl⟩ ?_
    intro t ht
    split
    · next atKey =>
      split
      · next leased =>
        have found := statusOf_of_mem T.unique ht
        rw [atKey, leased] at found
        exact ⟨rfl, rfl, rfl, .inr (.inl ⟨by rw [leased]; rfl, rfl, atKey ▸ cancels cancelled found⟩)⟩
      · exact .refl t
    · exact .refl t
  · next reports =>
    split at h
    · cases h
    · next row found =>
      have running := finishes (Bool.eq_false_iff.mpr reports) row found
      obtain ⟨still, recorded⟩ := T.recordResult result (clock 0) found running
      split at h
      · next more =>
        cases h
        rw [if_pos more] at recorded
        exact ⟨recorded.unique, recorded.named, recorded.siblings, recorded.unresolved,
          recorded.counted, recorded.awaits⟩
      · next enough =>
        rw [if_neg enough] at recorded
        exact recorded.updateTaskStatus still (outcome_ne_met _) h

lemma Tally.pollTasksOnce (T : Tally s none) (leaser : String) :
    Tally (pollTasksOnce s leaser).1 none := by
  refine T.uncounted ⟨rfl, rfl, fun t => by split <;> rfl⟩ fun t ht => ?_
  split
  · next chosen =>
    obtain ⟨queueing, -⟩ := ready_of_available T.unique ht chosen
    exact ⟨rfl, rfl, rfl, .inr (.inr ⟨.inl queueing, .inr rfl, rfl⟩)⟩
  · exact .refl t

lemma Tally.releaseLeases (T : Tally s none) (expired : List String) :
    Tally (releaseLeases s expired) none := by
  refine T.uncounted ⟨rfl, rfl, fun t => by split <;> rfl⟩ fun t ht => ?_
  split
  · next released =>
    simp only [Bool.and_eq_true, decide_eq_true_eq] at released
    exact ⟨rfl, rfl, rfl, .inr (.inr ⟨.inr released.1, .inl rfl, rfl⟩)⟩
  · exact .refl t

lemma Tally.reconnectTask (T : Tally s none) (h : reconnectTask s k leaser = some s') :
    Tally s' none := by
  unfold TaskStore.reconnectTask at h
  split at h
  · cases h
    refine T.uncounted ⟨rfl, rfl, fun t => by split <;> rfl⟩ fun t _ => ?_
    split
    · exact ⟨rfl, rfl, rfl, .inl ⟨rfl, rfl⟩⟩
    · exact .refl t
  · cases h

lemma Tally.cancelJob {jobId : Name} (T : Tally s none) (now : Time)
    (alone : ∀ t ∈ s.tasks, t.key.jobId = jobId → t.status.cancellable = true →
      s.hasParent t.key = false) : Tally (cancelJob s jobId now) none := by
  refine T.uncounted ⟨rfl, rfl, fun t => by split <;> rfl⟩ fun t ht => ?_
  split
  · next cancelled =>
    simp only [Bool.and_eq_true, decide_eq_true_eq] at cancelled
    refine ⟨rfl, rfl, rfl, .inr (.inl ⟨?_, rfl, alone t ht cancelled.1 cancelled.2⟩)⟩
    revert cancelled
    cases t.status <;> simp [Status.cancellable, Status.terminal]
  · exact .refl t

lemma append_children {row : Task} (tasks : s'.tasks = s.tasks ++ [row]) (k : TaskKey) :
    s'.children k = s.children k ++ if row.key.parentId = k.childrenId then [row] else [] := by
  rw [children, tasks, filter_append, children]
  by_cases h : row.key.parentId = k.childrenId <;> simp [h]

/-- No task has ended that would be a child of a task still to be created under this id. -/
def Store.Childless (s : Store) (parentId : List Name) : Prop :=
  ∀ t ∈ s.tasks, t.status.terminal = true → t.key.parentId ≠ [] →
    t.key.parentId.tail = parentId → s.hasParent t.key = true

lemma ended_of_childless (childless : s.Childless k.parentId) (free : s.find k = none) :
    s.ended k = 0 := by
  refine countP_eq_zero.mpr fun c hc ended => ?_
  obtain ⟨mem, below⟩ := mem_children.mp hc
  have parent := childless c mem ended (by simp [below, TaskKey.childrenId]) (by rw [below]; rfl)
  obtain ⟨t, ht, above⟩ := any_eq_true.mp parent
  have atKey : t.key = k := childrenId_inj ((of_decide_eq_true above).trans below)
  have absent := any_key_of_find_none free
  rw [any_eq_false] at absent
  exact absent t ht (decide_eq_true atKey)

lemma Tally.createTask {key : TaskKey} {count : Int} (T : Tally s none)
    (named : r.taskId.taskId ≠ "")
    (counted : r.dependencyRows.any s.refuses = true → s.hasParent r.taskId = false)
    (childless : s.Childless r.taskId.parentId) (h : createTask s r now = some (s', key, count)) :
    Tally s' none := by
  obtain ⟨added, name, status, tasks, deps, isPre, rfl, free, -, chosen, started⟩ :=
    createTask_cases h
  have split : ∀ t ∈ s'.tasks, t ∈ s.tasks ∨ t = r.row name status count now := by
    intro t ht
    rw [tasks] at ht
    simpa using ht
  have fresh : status.terminal = true → s.hasParent r.taskId = false := by
    intro ended
    rcases started with rfl | ⟨-, refused⟩
    · cases ended
    · exact counted refused
  refine ⟨?_, ?_, ?_, ?_, ?_, ?_⟩
  · exact uniqueKeys_append T.unique free tasks
  · intro t ht
    rcases split t ht with old | rfl
    · exact T.named t old
    · intro empty
      have none : name = "" := congrArg TaskKey.taskId empty
      rcases chosen with rfl | ⟨i, rfl⟩
      · exact named none
      · simp at none
  · intro d hd
    rw [deps] at hd
    rcases mem_append.mp hd with old | new
    · exact T.siblings d old
    · obtain ⟨e, -, rfl⟩ := mem_map.mp (isPre.subset new)
      rfl
  · intro t ht running
    rcases split t ht with old | rfl
    · exact T.unresolved t old running
    · rfl
  · intro t ht
    rw [ended, append_children tasks, countP_append]
    rcases split t ht with old | rfl
    · rw [T.counted t old, ended]
      by_cases below : r.taskId.parentId = t.key.childrenId
      · have parent : s.hasParent r.taskId = true :=
          any_eq_true.mpr ⟨t, old, by simpa using below.symm⟩
        have running : status.terminal = false := by
          by_contra ended
          rw [fresh (by simpa using ended)] at parent
          cases parent
        simp [SessionRequest.row, below, running]
      · simp [SessionRequest.row, below]
    · have none : s.ended ⟨r.taskId.parentId, name⟩ = 0 := ended_of_childless childless free
      have notOwn : ¬ (r.row name status count now).key.parentId =
          (r.row name status count now).key.childrenId := ne_cons_self
      rw [if_neg notOwn, countP_nil, Nat.add_zero]
      exact none.symm
  · intro t ht _
    rcases split t ht with old | rfl
    · intro reported
      refine (T.awaits t old (by simp) reported).imp_right ?_
      rintro ⟨waiting, n, total, below, bound⟩
      refine ⟨waiting, n, total, below, bound.trans ?_⟩
      rw [append_children tasks, length_append]
      exact Nat.le_add_right ..
    · intro reported
      cases reported

/-- The operations on the rows of a job: those of the store, and what the broker does to
leases and jobs besides. -/
inductive JobOp
  | store (op : Op)
  | cancelJob (jobId : Name) (now : Time)
  | release (expired : List String)
  | reconnect (key : TaskKey) (leaserIdentity : String)

def jobStep (s : Store) : JobOp → Option Store
  | .store op => step s op
  | .cancelJob jobId now => some (cancelJob s jobId now)
  | .release expired => some (releaseLeases s expired)
  | .reconnect key leaserIdentity => reconnectTask s key leaserIdentity

/-- No task with a parent ends uncounted, tasks are named, and results are for tasks that
have not ended. -/
def Accounted (s : Store) : JobOp → Prop
  | .store (.create r _) => r.taskId.taskId ≠ "" ∧ s.Childless r.taskId.parentId ∧
      (r.dependencyRows.any s.refuses = true → s.hasParent r.taskId = false)
  | .store (.poll _) => True
  | .store (.report k result _) =>
      if result.cancelled then s.statusOf k = some .leased → s.hasParent k = false
      else ∀ row ∈ s.find k, row.status.terminal = false
  | .cancelJob jobId _ => ∀ t ∈ s.tasks, t.key.jobId = jobId → t.status.cancellable = true →
      s.hasParent t.key = false
  | .release _ => True
  | .reconnect _ _ => True

instance (s : Store) (parentId : List Name) : Decidable (s.Childless parentId) :=
  inferInstanceAs (Decidable (∀ t ∈ s.tasks, _ → _ → _ → _))

instance (s : Store) (op : JobOp) : Decidable (Accounted s op) := by
  induction op using JobOp.casesOn with
  | store op => induction op using Op.casesOn <;> unfold Accounted <;> infer_instance
  | _ => unfold Accounted; infer_instance

lemma Tally.empty : Tally .empty none := by
  constructor <;> simp [Store.empty, Store.UniqueKeys]

lemma Tally.jobStep (T : Tally s none) (accounted : Accounted s op) (h : jobStep s op = some s') :
    Tally s' none := by
  rcases op with (⟨r, now⟩ | leaser | ⟨k, result, clock⟩) | ⟨jobId, now⟩ | expired | ⟨k, leaser⟩
  · obtain ⟨⟨t, key, count⟩, created, rfl⟩ := Option.map_eq_some_iff.mp h
    exact T.createTask accounted.1 accounted.2.2 accounted.2.1 created
  · cases h
    exact T.pollTasksOnce leaser
  · unfold Accounted at accounted
    refine T.updateTaskFinalResult ?_ ?_ h
    · intro reports
      simpa [reports] using accounted
    · intro cancelled
      simpa [cancelled] using accounted
  · cases h
    exact T.cancelJob now accounted
  · cases h
    exact T.releaseLeases expired
  · exact T.reconnectTask h

lemma tally_of_reachable (h : Reachable jobStep Accounted .empty s) : Tally s none :=
  h.invariant (I := fun s => Tally s none) .empty
    fun _ _ _ T accounted taken => T.jobStep accounted taken

/-- `completed_children` counts the children that have ended, a task that reported ends with
its last child, and reports return. -/
theorem children_counted (h : Reachable jobStep Accounted .empty s) :
    (∀ t ∈ s.tasks, t.completedChildren = (s.children t.key).countP (·.status.terminal) ∧
      (t.result.isSome → (∀ c ∈ s.children t.key, c.status.terminal = true) →
        t.status.terminal = true)) ∧ (Acyclic s.deps → ∀ k result clock, (s.find k).isSome →
      (updateTaskFinalResult s k result clock).isSome) := by
  have T := tally_of_reachable h
  refine ⟨fun t ht => ⟨T.counted t ht, ?_⟩, ?_⟩
  · intro reported ended
    rcases T.awaits t ht (by simp) reported with done | ⟨-, n, -, below, bound⟩
    · exact done
    · have all : s.ended t.key = (s.children t.key).length := countP_eq_length.mpr ended
      rw [T.counted t ht, all] at below
      omega
  · exact fun acyclic k result clock exists_row =>
      updateTaskFinalResult_isSome acyclic result clock exists_row

def subtask (name : Name) (dependencies : List (Name × DependencyType)) : JobOp :=
  .store (.create { taskId := ⟨["p"], name⟩, dependencies := dependencies } 1)

def subtaskExits (name : Name) (code : Int) : JobOp :=
  .store (.report ⟨["p"], name⟩ { payload := ⟨some code, 0⟩ } fun i => i + 2)

def polls : JobOp := .store (.poll "broker")

theorem children_counted_two : ∃ s, Reachable jobStep Accounted .empty s ∧
      (s.tasks.map fun t => (t.key.taskId, t.status, t.completedChildren)) =
        [("p", .failed, 2), ("a", .completed, 0), ("b", .failed, 0)] ∧
      ∀ t ∈ s.tasks, t.completedChildren = (s.children t.key).countP (·.status.terminal) := by
  obtain ⟨s, reached, rows⟩ := exists_of_run jobStep Accounted .empty
    [.store (request "p" []), polls, subtask "a" [], subtask "b" [], polls, subtaskExits "a" 0,
      .store (exits "p" 0), subtaskExits "b" 1]
    (fun s => (s.tasks.map fun t => (t.key.taskId, t.status, t.completedChildren)) =
      [("p", .failed, 2), ("a", .completed, 0), ("b", .failed, 0)]) (by decide)
  exact ⟨s, reached, rows, fun t ht => ((children_counted reached).1 t ht).1⟩

/-- Subtasks are created for a task that has not reported, and results are for leased tasks. -/
def Proper (s : Store) : JobOp → Prop
  | .store (.create r _) => r.taskId.taskId ≠ "" ∧ s.find r.taskId = none ∧
      (r.taskId.parentId = [] ∨
        ∃ t ∈ s.tasks, t.key.childrenId = r.taskId.parentId ∧ t.result = none)
  | .store (.report k _ _) => s.statusOf k = some .leased
  | _ => True

instance (s : Store) (op : JobOp) : Decidable (Proper s op) := by
  induction op using JobOp.casesOn with
  | store op => induction op using Op.casesOn <;> unfold Proper <;> infer_instance
  | _ => unfold Proper; infer_instance

/-- A task that has reported and whose children have all ended goes on waiting for them. -/
def Store.Stuck (s : Store) : Prop :=
  ∃ t ∈ s.tasks, t.result.isSome ∧ (∀ c ∈ s.children t.key, c.status.terminal = true) ∧
    t.status.terminal = false ∧ t.completedChildren ≠ (s.children t.key).countP (·.status.terminal)

instance (s : Store) : Decidable s.Stuck :=
  inferInstanceAs (Decidable (∃ t ∈ s.tasks, _ ∧ _))

/-- The subtask `b` is refused at creation; `a` is cancelled with the job while the parent is
leased; `a` reports that it was cancelled. -/
theorem children_miscounted : (∃ s, Reachable jobStep Proper .empty s ∧ s.Stuck ∧
      ∃ t ∈ s.tasks, t.status = .failedUpstream) ∧
    (∃ s, Reachable jobStep Proper .empty s ∧ s.Stuck ∧
      ∃ t ∈ s.tasks, t.status = .cancelled ∧ t.resolveTime.isSome) ∧
    ∃ s, Reachable jobStep Proper .empty s ∧ s.Stuck ∧
      ∃ t ∈ s.tasks, t.status = .cancelled ∧ t.finishTime.isSome := by
  refine ⟨?_, ?_, ?_⟩
  · exact exists_of_run _ _ _
      [.store (request "p" []), polls, subtask "a" [], polls, subtaskExits "a" 1,
        subtask "b" [("a", .success)], .store (exits "p" 0)] _ (by decide)
  · exact exists_of_run _ _ _
      [.store (request "p" []), polls, subtask "a" [], .cancelJob "p" 2,
        .store (exits "p" 0)] _ (by decide)
  · exact exists_of_run _ _ _
      [.store (request "p" []), polls, subtask "a" [], polls,
        .store (.report ⟨["p"], "a"⟩ { payload := ⟨none, 0⟩, cancelled := true } fun i => i + 2),
        .store (exits "p" 0)] _ (by decide)

end Velda.TaskStore
