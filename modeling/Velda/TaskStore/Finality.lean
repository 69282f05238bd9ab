import Velda.TaskStore.Leases

/-! Tasks that have ended. An operation that is not a second report keeps the status of every
row that has ended, and changes the counters of other rows only for tasks that it ends. A
result that is reported for a task that has ended overwrites its status and is handed
on to the tasks that wait for it once more. -/
namespace Velda.TaskStore
open Lib List Option Function Store

variable {s s' s'' : Store} {k base : TaskKey} {outcome : Outcome} {rows : List UpdateRow}
  {f g : Task → Task}

/-- The operation that makes `f t` of the row `t` ends the task. -/
def Task.endsBy (f : Task → Task) (t : Task) : Prop :=
  t.status.terminal = false ∧ (f t).status.terminal = true

/-- The rows are rewritten: what has ended stays, and counters change for tasks that end. -/
structure Advances (s s' : Store) (f : Task → Task) : Prop extends Rewritten s s' f where
  stays : ∀ t ∈ s.tasks, t.status.terminal = true → (f t).status = t.status
  unresolved : ∀ t ∈ s.tasks, (f t).status.terminal = false → (f t).resolveTime = t.resolveTime
  pending : ∀ t ∈ s.tasks, (f t).pendingUpstreams ≠ t.pendingUpstreams →
    ∃ d ∈ s.dependenciesOf t.key, ∃ u ∈ s.tasks, u.key = d.upstream ∧ u.endsBy f
  counted : ∀ t ∈ s.tasks, (f t).completedChildren ≠ t.completedChildren →
    ∃ c ∈ s.children t.key, c.endsBy f

variable {t : Task} {op : JobOp}

namespace Advances

lemma endsBy_comp (h : Advances s s' f) (h' : Advances s' s'' g) (ht : t ∈ s.tasks)
    (ends : t.endsBy f ∨ (f t).endsBy g) : t.endsBy (g ∘ f) := by
  rcases ends with ⟨running, done⟩ | ⟨running, done⟩
  · refine ⟨running, ?_⟩
    rw [comp_apply, h'.stays (f t) (h.mem ht) done, done]
  · refine ⟨?_, done⟩
    by_contra ended
    rw [Bool.not_eq_false] at ended
    rw [h.stays t ht ended, ended] at running
    cases running

lemma trans (h : Advances s s' f) (h' : Advances s' s'' g) : Advances s s'' (g ∘ f) where
  tasks := by rw [h'.tasks, h.tasks, List.map_map]
  deps := h'.deps.trans h.deps
  key t := (h'.key (f t)).trans (h.key t)
  stays t ht ended := by
    have same := h.stays t ht ended
    rw [comp_apply, h'.stays (f t) (h.mem ht) (same ▸ ended), same]
  unresolved t ht running := by
    have before : (f t).status.terminal = false := by
      by_contra ended
      rw [Bool.not_eq_false] at ended
      rw [comp_apply, h'.stays (f t) (h.mem ht) ended, ended] at running
      cases running
    exact (h'.unresolved (f t) (h.mem ht) running).trans (h.unresolved t ht before)
  pending t ht changed := by
    by_cases first : (f t).pendingUpstreams = t.pendingUpstreams
    · rw [← first] at changed
      obtain ⟨d, hd, u', hu', up, ends⟩ := h'.pending (f t) (h.mem ht) changed
      rw [h.tasks] at hu'
      obtain ⟨u, hu, rfl⟩ := mem_map.mp hu'
      rw [dependenciesOf, h.deps, h.key] at hd
      exact ⟨d, hd, u, hu, (h.key u).symm.trans up, h.endsBy_comp h' hu (.inr ends)⟩
    · obtain ⟨d, hd, u, hu, up, ends⟩ := h.pending t ht first
      exact ⟨d, hd, u, hu, up, h.endsBy_comp h' hu (.inl ends)⟩
  counted t ht changed := by
    by_cases first : (f t).completedChildren = t.completedChildren
    · rw [← first] at changed
      obtain ⟨c', hc', ends⟩ := h'.counted (f t) (h.mem ht) changed
      rw [h.children, h.key] at hc'
      obtain ⟨c, hc, rfl⟩ := mem_map.mp hc'
      exact ⟨c, hc, h.endsBy_comp h' (mem_children.mp hc).1 (.inr ends)⟩
    · obtain ⟨c, hc, ends⟩ := h.counted t ht first
      exact ⟨c, hc, h.endsBy_comp h' (mem_children.mp hc).1 (.inl ends)⟩

lemma sound (h : Advances s s' f) (S : Sound s) : Sound s' where
  unique := h.uniqueKeys S.unique
  siblings := h.deps ▸ S.siblings
  unresolved := by
    rw [h.tasks]
    refine forall_mem_map.mpr fun t ht running => ?_
    rw [h.unresolved t ht running]
    refine S.unresolved t ht ?_
    by_contra ended
    rw [Bool.not_eq_false] at ended
    rw [h.stays t ht ended, ended] at running
    cases running

lemma of_rows (h : Advances s s' f) (tasks : s''.tasks = s'.tasks) (deps : s''.deps = s'.deps) :
    Advances s s'' f :=
  ⟨⟨tasks.trans h.tasks, deps.trans h.deps, h.key⟩, h.stays, h.unresolved, h.pending, h.counted⟩

lemma of_moves {p : Task → Prop} [DecidablePred p] {g : Task → Task}
    (tasks : s'.tasks = s.tasks.map fun t => if p t then g t else t) (deps : s'.deps = s.deps)
    (kept : ∀ t, (g t).key = t.key ∧ (g t).pendingUpstreams = t.pendingUpstreams ∧
      (g t).completedChildren = t.completedChildren)
    (stays : ∀ t ∈ s.tasks, p t → t.status.terminal = true → (g t).status = t.status)
    (unresolved : ∀ t, (g t).status.terminal = false → (g t).resolveTime = t.resolveTime) :
    Advances s s' fun t => if p t then g t else t := by
  refine ⟨⟨tasks, deps, fun t => ?_⟩, fun t ht ended => ?_, fun t _ running => ?_,
    fun t _ changed => absurd ?_ changed, fun t _ changed => absurd ?_ changed⟩
  · split
    · exact (kept t).1
    · rfl
  · split
    · next moves => exact stays t ht moves ended
    · rfl
  · split at running
    · next moves =>
      rw [if_pos moves]
      exact unresolved t running
    · next rests => rw [if_neg rests]
  · split
    · exact (kept t).2.1
    · rfl
  · split
    · exact (kept t).2.2
    · rfl

end Advances

lemma countP_split {l : List Task} {p q r : Task → Bool}
    (h : ∀ t ∈ l, (if p t then 1 else 0) + (if q t then 1 else 0) = if r t then 1 else 0) :
    l.countP p + l.countP q = l.countP r := by
  induction l with
  | nil => rfl
  | cons t rest ih =>
    have first := h t mem_cons_self
    have later := ih fun u hu => h u (mem_cons_of_mem _ hu)
    simp only [countP_cons]
    omega

/-- The announcements made between `s` and `s'` are one for each task that ends, with the status
it ends with. -/
def Told (s s' : Store) (f : Task → Task) : Prop :=
  ∃ new, s'.announced = s.announced ++ new ∧ ∀ k status, status.terminal = true →
    new.count (k, statusStrToProto status 0) =
      s.tasks.countP fun t => t.key = k && !t.status.terminal && (f t).status = status

lemma statusStrToProto_inj (ended : a.terminal = true) (ended' : b.terminal = true)
    (pendingUpstreams : Int) :
    statusStrToProto a pendingUpstreams = statusStrToProto b 0 ↔ a = b := by
  cases a <;> cases b <;> simp_all [Status.terminal, statusStrToProto]

namespace Told

lemma of_quiet (same : s'.announced = s.announced)
    (running : ∀ t ∈ s.tasks, t.status.terminal = false → (f t).status.terminal = false) :
    Told s s' f := by
  refine ⟨[], by rw [same, append_nil], fun k status ended => ?_⟩
  rw [count_nil, eq_comm, countP_eq_zero]
  intro t ht ends
  simp only [Bool.and_eq_true, Bool.not_eq_true', decide_eq_true_eq] at ends
  have unended := running t ht ends.1.2
  rw [ends.2, ended] at unended
  cases unended

lemma of_status (h : Told s s' f) (same : s''.announced = s'.announced)
    (status : ∀ t, (g t).status = (f t).status) : Told s s'' g := by
  obtain ⟨new, announced, counts⟩ := h
  refine ⟨new, same.trans announced, fun k st ended => ?_⟩
  simp only [counts k st ended, status]

lemma trans (A : Advances s s' f) (A' : Advances s' s'' g) (h : Told s s' f)
    (h' : Told s' s'' g) : Told s s'' (g ∘ f) := by
  obtain ⟨new, announced, counts⟩ := h
  obtain ⟨new', announced', counts'⟩ := h'
  refine ⟨new ++ new', by rw [announced', announced, append_assoc], fun k status ended => ?_⟩
  rw [count_append, counts k status ended, counts' k status ended, A.tasks, countP_map]
  -- A task ends with the status in the first part and keeps it, or in the second.
  refine countP_split fun t ht => ?_
  simp only [comp_apply, A.key]
  by_cases atKey : t.key = k
  swap
  · simp [atKey]
  cases before : t.status.terminal with
  | true =>
    have same := A.stays t ht before
    simp [same, before]
  | false =>
    cases middle : (f t).status.terminal with
    | true =>
      have same := A'.stays (f t) (A.mem ht) middle
      simp [same]
    | false =>
      have other : (f t).status ≠ status := by
        rintro rfl
        rw [ended] at middle
        cases middle
      simp [other]

end Told

def Outcome.ran : Outcome → Bool
  | .success | .fail => true
  | _ => false

lemma ne_met_of_ran (h : outcome.ran = true) : outcome ≠ .met := by
  rintro rfl
  cases h

/-- A task that has not ended reports an outcome. -/
structure Reports (s : Store) (k : TaskKey) (outcome : Outcome) : Prop where
  sound : Sound s
  running : s.running k
  present : ∃ t ∈ s.tasks, t.key = k
  ran : outcome.ran = true

section Pass
variable {now : Time} (R : Reports s base outcome)
  (found : s.downstreamUpdates base outcome = some rows)
include R found

lemma FailChain.endsBy (chained : FailChain s base outcome chain v o) :
    ∃ u ∈ s.tasks, u.key = v ∧ u.endsBy (applyRows rows now) := by
  have failing : 0 < failCount rows v :=
    (failCount_pos_iff (ne_met_of_ran R.ran) found).mpr ⟨chain, o, chained⟩
  obtain ⟨r, mem, holds⟩ := countP_pos_iff.mp failing
  obtain ⟨first, firstly⟩ : ∃ first, firstOutcome rows v = some first := by
    cases out : firstOutcome rows v with
    | some first => exact ⟨first, rfl⟩
    | none =>
      rw [firstOutcome, map_eq_none_iff, List.find?_eq_none] at out
      exact absurd holds (out r mem)
  obtain ⟨u, hu, atKey⟩ : ∃ u ∈ s.tasks, u.key = v := by
    by_cases atBase : v = base
    · exact atBase ▸ R.present
    · have isOpen := chained.isOpen_of_ne atBase
      unfold Store.isOpen Store.statusOf at isOpen
      cases row : s.find v with
      | none => simp [row] at isOpen
      | some u => exact ⟨u, find_mem row, find_key row⟩
  simp only [decide_eq_true_eq] at holds
  have reached : touched rows u = true :=
    any_eq_true.mpr ⟨r, mem, decide_eq_true (holds.1.trans atKey.symm)⟩
  refine ⟨u, hu, atKey, (open_of_touched R.sound found R.running hu reached).1, ?_⟩
  rw [applyRows_status, atKey, firstly]
  exact terminal_of_finished (finished_of_outcome u.status (firstOutcome_ne_met firstly))

lemma upstream_endsBy
    (changed : (applyRows rows now t).pendingUpstreams ≠ t.pendingUpstreams) :
    ∃ d ∈ s.dependenciesOf t.key, ∃ u ∈ s.tasks, u.key = d.upstream ∧
      u.endsBy (applyRows rows now) := by
  have positive : 0 < upstreamMet rows t.key := by
    rw [applyRows_pendingUpstreams] at changed
    omega
  obtain ⟨r, mem, holds⟩ := countP_pos_iff.mp positive
  simp only [decide_eq_true_eq] at holds
  rcases row_cases found mem with rfl | ⟨d, dep, chain, o, chained, -, rfl⟩
  · rcases holds.2 with rfl | rfl <;> cases R.ran
  · exact ⟨d, mem_dependenciesOf.mpr ⟨dep, holds.1⟩, chained.endsBy R found⟩

variable (now) in
lemma advances_of_rows {F : Task → Task} (rewritten : Rewritten s s' F)
    (status : ∀ t, (F t).status = (applyRows rows now t).status)
    (resolve : ∀ t, (F t).resolveTime = (applyRows rows now t).resolveTime)
    (pending : ∀ t, (F t).pendingUpstreams = (applyRows rows now t).pendingUpstreams)
    (counted : ∀ t ∈ s.tasks, (F t).completedChildren ≠ t.completedChildren →
      t.key.childrenId = base.parentId ∧ 0 < s.tasks.countP fun c =>
        touched rows c && decide ((applyRows rows now c).resolveTime = some now)) :
    Advances s s' F := by
  have ends {t : Task} : t.endsBy (applyRows rows now) → t.endsBy F := by
    rintro ⟨running, done⟩
    exact ⟨running, (status t).symm ▸ done⟩
  refine ⟨rewritten, ?_, ?_, ?_, ?_⟩
  · intro t ht ended
    rw [status]
    rcases applyRows_cases R.sound found R.running ht now with ⟨same, -⟩ | ⟨-, unended, -⟩
    · exact same
    · rw [ended] at unended
      cases unended
  · intro t ht unended
    rw [status] at unended
    rw [resolve]
    rcases applyRows_cases R.sound found R.running ht now with ⟨-, same⟩ | ⟨-, -, -, ended, -⟩
    · exact same
    · rw [ended] at unended
      cases unended
  · intro t ht changed
    rw [pending] at changed
    obtain ⟨d, hd, u, hu, up, ended⟩ := upstream_endsBy R found changed
    exact ⟨d, hd, u, hu, up, ends ended⟩
  · intro t ht changed
    obtain ⟨parent, positive⟩ := counted t ht changed
    obtain ⟨c, hc, resolved⟩ := countP_pos_iff.mp positive
    have reached : touched rows c = true := (Bool.and_eq_true_iff.mp resolved).1
    obtain ⟨unended, sibling⟩ := open_of_touched R.sound found R.running hc reached
    rw [resolved_iff R.sound found R.running hc now, Bool.and_eq_true] at resolved
    exact ⟨c, mem_children.mpr ⟨hc, sibling.trans parent.symm⟩, ends ⟨unended, resolved.2⟩⟩

lemma told_propagate (h : s.propagate base outcome now = some (s', resolved)) :
    Told s s' (applyRows rows now) := by
  obtain ⟨rows', found', passed⟩ := map_eq_some_iff.mp h
  cases found.symm.trans found'
  cases passed
  refine ⟨_, rfl, fun k status ended => ?_⟩
  rw [count_eq_countP, countP_map, countP_filter, countP_map,
    countP_filter]
  refine countP_congr fun t ht => ?_
  have resolved := resolved_iff R.sound found R.running ht now
  rw [Bool.eq_iff_iff] at resolved
  simp only [Bool.and_eq_true, Bool.not_eq_true', decide_eq_true_eq] at resolved
  simp only [comp_apply, applyRows_key, Bool.and_eq_true, Bool.not_eq_true',
    decide_eq_true_eq, beq_iff_eq, Prod.mk.injEq]
  constructor
  · rintro ⟨⟨⟨atKey, proto⟩, stamped⟩, reached⟩
    obtain ⟨unended, done⟩ := resolved.mp ⟨reached, stamped⟩
    exact ⟨⟨atKey, unended⟩, (statusStrToProto_inj done ended _).mp proto⟩
  · rintro ⟨⟨atKey, unended⟩, rfl⟩
    obtain ⟨reached, stamped⟩ := resolved.mpr ⟨unended, ended⟩
    exact ⟨⟨⟨atKey, (statusStrToProto_inj ended ended _).mpr rfl⟩, stamped⟩, reached⟩

end Pass

lemma childrenOutcome_ran (s : Store) (k : TaskKey) : (s.childrenOutcome k).ran = true := by
  unfold childrenOutcome
  split <;> rfl

lemma Advances.pass {next : Option Outcome} (R : Reports s base outcome)
    (h : s.pass base outcome now = some (s', next)) : (∃ F, Advances s s' F ∧ Told s s' F) ∧
      ∀ o, next = some o → ∃ parent, parent.childrenId = base.parentId ∧ Reports s' parent o := by
  obtain ⟨m, n, rows, propagated, quiet, found, counts, counted⟩ := pass_cases R.sound.unique h
  have told := told_propagate R found propagated
  cases counted with
  | alone rewritten ends =>
    refine ⟨⟨_, advances_of_rows now R found rewritten (fun _ => rfl) (fun _ => rfl)
      (fun _ => rfl) fun t _ changed => absurd (applyRows_completedChildren now t) changed,
      told.of_status quiet fun _ => rfl⟩, fun o climbed => ?_⟩
    rw [ends] at climbed
    cases climbed
  | @parent k row up _ there rewritten climbs =>
    have advances : Advances s s' (passed rows now base.parentId n) := by
      refine advances_of_rows now R found rewritten (fun _ => passed_status ..)
        (fun _ => passed_resolveTime ..) (fun t => ?_) fun t _ changed => ?_
      · unfold passed
        split <;> rfl
      · rw [passed_completedChildren] at changed
        split at changed
        · next parent => exact ⟨parent, by omega⟩
        · exact absurd (Nat.add_zero _) changed
    refine ⟨⟨_, advances, told.of_status quiet fun _ => passed_status ..⟩, fun o climbed => ?_⟩
    rw [climbed] at climbs
    split at climbs
    · next complete =>
      have row' := rewritten.find k
      rw [there, map_some, passed, if_pos (by rw [find_key there, up])] at row'
      have S := advances.sound R.sound
      refine ⟨k, up, S, fun t ht atKey => ?_, ⟨_, find_mem row', find_key row'⟩,
        Option.some.inj climbs ▸ childrenOutcome_ran s' _⟩
      rw [eq_of_find S.unique row' ht atKey]
      simp only [Task.complete, Bool.and_eq_true, decide_eq_true_eq] at complete
      rw [complete.1]
      rfl
    · cases climbs

lemma Reports.turn {clock : Nat → Time} (R : Reports s base outcome)
    (h : updateTaskStatus base.parentId s clock base.taskId outcome = some s') :
    ∃ m next, s.pass base outcome (clock 0) = some (m, next) ∧ Sound m ∧
      (next = none ∧ s' = m ∨ ∃ parent o, next = some o ∧ parent.childrenId = base.parentId ∧
        Reports m parent o ∧ updateTaskStatus parent.parentId m (fun i => clock (i + 1))
          parent.taskId o = some s') := by
  obtain ⟨m, next, passed, later⟩ := updateTaskStatus_turn h
  obtain ⟨⟨F, turn, -⟩, climbs⟩ := Advances.pass R passed
  refine ⟨m, next, passed, turn.sound R.sound, later.imp_right ?_⟩
  rintro ⟨parent, o, climbed, up, rest⟩
  obtain ⟨parent', up', R'⟩ := climbs o climbed
  obtain rfl : parent' = parent := childrenId_inj (up'.trans up.symm)
  exact ⟨parent', o, climbed, up, R', rest⟩

lemma Advances.updateTaskStatus {clock : Nat → Time} (R : Reports s base outcome)
    (h : updateTaskStatus base.parentId s clock base.taskId outcome = some s') :
    ∃ F, Advances s s' F ∧ Told s s' F := by
  refine updateTaskStatus_induction (Q := fun t => ∃ F, Advances s t F ∧ Told s t F)
    (P := fun u k o => Reports u k o ∧ ∀ t, (∃ F, Advances u t F ∧ Told u t F) →
      ∃ F, Advances s t F ∧ Told s t F) ?_ ⟨R, fun _ => id⟩ h
  rintro u base outcome now u' next ⟨R, lift⟩ passed
  obtain ⟨⟨F, turn, told⟩, climbs⟩ := pass R passed
  refine ⟨fun _ => lift u' ⟨F, turn, told⟩, fun o climbed => ?_⟩
  obtain ⟨parent, up, R'⟩ := climbs o climbed
  refine ⟨parent, up, R', ?_⟩
  rintro t ⟨G, later, told'⟩
  exact lift t ⟨G ∘ F, turn.trans later, told.trans turn later told'⟩

lemma outcome_ran (r : BatchTaskResult) : r.outcome.ran = true := by
  unfold BatchTaskResult.outcome
  split <;> rfl

lemma Advances.recordResult (S : Sound s) (result : FinalResult) (now : Time) {row : Task}
    (found : s.find k = some row) (unended : row.status.terminal = false) :
    Advances s (s.recordResult k result now) (s.recorded k result now) ∧
      Told s (s.recordResult k result now) (s.recorded k result now) ∧
      Reports (s.recordResult k result now) k result.payload.outcome := by
  have R := recordResult_rewritten (s := s) (k := k) result now
  have advances : Advances s (s.recordResult k result now) (s.recorded k result now) := by
    refine .of_moves rfl rfl (fun t => ⟨rfl, rfl, rfl⟩) (fun t ht atKey ended => ?_) fun t _ => rfl
    rw [eq_of_find S.unique found ht atKey, unended] at ended
    cases ended
  refine ⟨advances, .of_quiet rfl fun t ht running => ?_, advances.sound S,
    running_recordResult S.unique result now found unended, ?_, outcome_ran _⟩
  · rw [terminal_recorded S.unique result now found unended ht, running]
  · exact ⟨_, R.mem (find_mem found), (R.key row).trans (find_key found)⟩

def Guarded (s : Store) : JobOp → Prop
  | .store (.report k result _) =>
    result.cancelled = false → ∀ row ∈ s.find k, row.status.terminal = false
  | _ => True

instance (s : Store) (op : JobOp) : Decidable (Guarded s op) := by
  induction op using JobOp.casesOn with
  | store op => induction op using Op.casesOn <;> unfold Guarded <;> infer_instance
  | _ => unfold Guarded; infer_instance

/-- The operation does not end a task silently: no task is refused at its creation, and no task
that is leased reports that it was cancelled. -/
def Voiced (s : Store) : JobOp → Prop
  | .store (.create r _) => r.dependencyRows.any s.refuses = false
  | .store (.report k result _) => result.cancelled = true → s.statusOf k ≠ some .leased
  | _ => True

instance (s : Store) (op : JobOp) : Decidable (Voiced s op) := by
  induction op using JobOp.casesOn with
  | store op => induction op using Op.casesOn <;> unfold Voiced <;> infer_instance
  | _ => unfold Voiced; infer_instance

lemma Advances.updateTaskFinalResult {clock : Nat → Time} (S : Sound s)
    (unended : result.cancelled = false → ∀ row ∈ s.find k, row.status.terminal = false)
    (h : updateTaskFinalResult s k result clock = some s') : ∃ F, Advances s s' F ∧
      ((result.cancelled = true → s.statusOf k ≠ some .leased) → Told s s' F) := by
  unfold TaskStore.updateTaskFinalResult at h
  split at h
  · next cancelled =>
    cases h
    refine ⟨_, .of_moves rfl rfl ?_ ?_ ?_, ?_⟩
    · intro t
      split <;> exact ⟨rfl, rfl, rfl⟩
    · intro t _ _ ended
      split
      · next leased =>
        rw [leased] at ended
        cases ended
      · rfl
    · intro t _
      split <;> rfl
    · intro voiced
      refine .of_quiet rfl fun t ht running => ?_
      split
      · next atKey =>
        rw [if_neg]
        · exact running
        · intro leased
          have found := statusOf_of_mem S.unique ht
          rw [atKey, leased] at found
          exact voiced cancelled found
      · exact running
  · next reports =>
    split at h
    · cases h
    · next row found =>
      obtain ⟨recorded, told, reports'⟩ := Advances.recordResult S result (clock 0) found
        (unended (Bool.eq_false_iff.mpr reports) row found)
      split at h
      · cases h
        refine ⟨_, recorded.of_rows rfl rfl, fun _ => ?_⟩
        obtain ⟨new, announced, counts⟩ := told
        refine ⟨new ++ [(k, .runningSubtasks)], by rw [announced, append_assoc], ?_⟩
        intro k' status ended
        have other : (k, TaskStatus.runningSubtasks) ≠ (k', statusStrToProto status 0) := by
          cases status <;> simp_all [Status.terminal, statusStrToProto]
        rw [count_append, counts k' status ended, count_singleton, if_neg (by simpa using other)]
        rfl
      · obtain ⟨G, settled, told'⟩ := Advances.updateTaskStatus reports' h
        exact ⟨_, recorded.trans settled, fun _ => told.trans recorded settled told'⟩

lemma told_cancelJob (s : Store) (jobId : Name) (now : Time) :
    Told s (cancelJob s jobId now) fun t => if t.key.jobId = jobId && t.status.cancellable then
        { t with status := .cancelled, resolveTime := some now }
      else t := by
  refine ⟨_, rfl, fun k status ended => ?_⟩
  rw [count_eq_countP, countP_map, countP_filter]
  refine countP_congr fun t _ => ?_
  simp only [comp_apply, Bool.and_eq_true, decide_eq_true_eq,
    beq_iff_eq, Prod.mk.injEq, statusStrToProto_inj (a := .cancelled) rfl ended]
  by_cases cancels : t.key.jobId = jobId ∧ t.status.cancellable = true
  · have unended : t.status.terminal = false := by
      obtain ⟨-, cancellable⟩ := cancels
      revert cancellable
      cases t.status <;> simp [Status.cancellable, Status.terminal]
    simp [cancels, unended]
  · rw [if_neg cancels]
    constructor
    · exact fun both => absurd both.2 cancels
    · rintro ⟨⟨-, unended⟩, rfl⟩
      rw [ended] at unended
      cases unended

lemma Advances.jobStep (S : Sound s) (guarded : Guarded s op) (h : jobStep s op = some s')
    (rewrites : ∀ r now, op ≠ .store (.create r now)) :
    ∃ F, Advances s s' F ∧ (Voiced s op → Told s s' F) := by
  rcases op with (⟨r, now⟩ | leaser | ⟨k, result, clock⟩) | ⟨jobId, now⟩ | expired | ⟨k, leaser⟩
  · exact absurd rfl (rewrites r now)
  · cases h
    refine ⟨_, .of_moves rfl rfl (fun t => ⟨rfl, rfl, rfl⟩) ?_ (fun t _ => rfl), fun _ => ?_⟩
    · intro t ht chosen ended
      rw [(ready_of_available S.unique ht chosen).1] at ended
      cases ended
    · refine .of_quiet rfl fun t _ running => ?_
      split
      · rfl
      · exact running
  · exact Advances.updateTaskFinalResult S guarded h
  · cases h
    refine ⟨_, .of_moves rfl rfl (fun t => ⟨rfl, rfl, rfl⟩) ?_ ?_, fun _ => told_cancelJob s jobId now⟩
    · intro t _ cancelled ended
      simp only at cancelled
      revert ended cancelled
      cases t.status <;> simp [Status.cancellable, Status.terminal]
    · intro t running
      cases running
  · cases h
    refine ⟨_, .of_moves rfl rfl (fun t => ⟨rfl, rfl, rfl⟩) ?_ (fun t _ => rfl), fun _ => ?_⟩
    · intro t _ released ended
      simp only [Bool.and_eq_true, decide_eq_true_eq] at released
      rw [released.1] at ended
      cases ended
    · refine .of_quiet rfl fun t _ running => ?_
      split
      · rfl
      · exact running
  · change TaskStore.reconnectTask s k leaser = some s' at h
    unfold TaskStore.reconnectTask at h
    split at h
    · cases h
      refine ⟨_, .of_moves rfl rfl (fun t => ⟨rfl, rfl, rfl⟩) (fun t _ _ _ => rfl) fun t _ => rfl,
        fun _ => .of_quiet rfl fun t _ running => ?_⟩
      split <;> exact running
    · cases h

lemma Sound.empty : Sound .empty := by
  constructor <;> simp [Store.empty, Store.UniqueKeys]

lemma Sound.createTask {key : TaskKey} {count : Int} (S : Sound s)
    (h : createTask s r now = some (s', key, count)) : Sound s' := by
  obtain ⟨added, name, status, tasks, deps, isPre, rfl, free, -⟩ := createTask_cases h
  refine ⟨uniqueKeys_append S.unique free tasks, ?_, ?_⟩
  · rw [deps]
    intro d hd
    rcases mem_append.mp hd with old | new
    · exact S.siblings d old
    · obtain ⟨e, -, rfl⟩ := mem_map.mp (isPre.subset new)
      rfl
  · rw [tasks]
    intro t ht running
    rcases mem_append.mp ht with old | new
    · exact S.unresolved t old running
    · rw [mem_singleton.mp new]
      rfl

lemma find_createTask {key : TaskKey} {count : Int} (h : createTask s r now = some (s', key, count))
    (found : s.find k = some t) : s'.find k = some t := by
  obtain ⟨added, name, status, tasks, -⟩ := createTask_cases h
  rw [find, tasks, List.find?_append]
  change (s.find k).or _ = _
  rw [found, some_or]

lemma Sound.jobStep (S : Sound s) (guarded : Guarded s op) (h : jobStep s op = some s') :
    Sound s' := by
  by_cases creates : ∃ r now, op = .store (.create r now)
  · obtain ⟨r, now, rfl⟩ := creates
    obtain ⟨⟨t, key, count⟩, created, rfl⟩ := map_eq_some_iff.mp h
    exact S.createTask created
  · obtain ⟨F, advances, -⟩ := Advances.jobStep S guarded h fun r now eq => creates ⟨r, now, eq⟩
    exact advances.sound S

lemma sound_of_reachable (h : Reachable jobStep Guarded .empty s) : Sound s :=
  h.invariant .empty fun _ _ _ S guarded taken => S.jobStep guarded taken

lemma exists_row_of_jobStep (S : Sound s) (guarded : Guarded s op) (h : jobStep s op = some s')
    (found : s.find k = some t) :
    s'.find k = some t ∨ ∃ F, Advances s s' F ∧ s'.find k = some (F t) := by
  by_cases creates : ∃ r now, op = .store (.create r now)
  · obtain ⟨r, now, rfl⟩ := creates
    obtain ⟨⟨m, key, count⟩, created, rfl⟩ := map_eq_some_iff.mp h
    exact .inl (find_createTask created found)
  · obtain ⟨F, advances, -⟩ := Advances.jobStep S guarded h fun r now eq => creates ⟨r, now, eq⟩
    exact .inr ⟨F, advances, by rw [advances.find, found, map_some]⟩

lemma statusOf_jobStep {status : Status} (S : Sound s) (guarded : Guarded s op)
    (h : jobStep s op = some s') (ended : status.terminal = true)
    (found : s.statusOf k = some status) : s'.statusOf k = some status := by
  obtain ⟨t, row, rfl⟩ := map_eq_some_iff.mp found
  rw [statusOf]
  rcases exists_row_of_jobStep S guarded h row with same | ⟨F, advances, moved⟩
  · rw [same, map_some]
  · rw [moved, map_some, advances.stays t (find_mem row) ended]

def Store.Ends (s s' : Store) (k : TaskKey) : Prop :=
  ∃ before ∈ s.statusOf k, ∃ after ∈ s'.statusOf k,
    before.terminal = false ∧ after.terminal = true

lemma Advances.ends (h : Advances s s' f) (S : Sound s) (ht : t ∈ s.tasks) (ends : t.endsBy f) :
    s.Ends s' t.key := by
  have row := find_of_mem S.unique ht
  refine ⟨t.status, ?_, (f t).status, ?_, ends⟩
  · rw [statusOf, row]
    rfl
  · rw [statusOf, h.find, row]
    rfl

/-- Where results are reported only for tasks that have not ended, the end of a task is final,
and an operation changes a counter only for an upstream or a child that it ends. -/
theorem terminal_absorbing (h : Reachable jobStep Guarded .empty s) :
    (∀ s', Reachable jobStep Guarded s s' → ∀ k, ∀ status ∈ s.statusOf k,
      status.terminal = true → s'.statusOf k = some status) ∧
    ∀ op s', Guarded s op → jobStep s op = some s' → ∀ t ∈ s.tasks, ∃ t', s'.find t.key = some t' ∧
        (t'.pendingUpstreams ≠ t.pendingUpstreams →
          ∃ d ∈ s.dependenciesOf t.key, s.Ends s' d.upstream) ∧
        (t'.completedChildren ≠ t.completedChildren → ∃ c ∈ s.children t.key, s.Ends s' c.key) := by
  have S := sound_of_reachable h
  refine ⟨fun s' later k status found ended => ?_, fun op s' guarded taken t ht => ?_⟩
  · have both := later.invariant (I := fun m => Sound m ∧ m.statusOf k = some status) ⟨S, found⟩
      fun m op m' I guarded taken =>
        ⟨I.1.jobStep guarded taken, statusOf_jobStep I.1 guarded taken ended I.2⟩
    exact both.2
  · have row := find_of_mem S.unique ht
    rcases exists_row_of_jobStep S guarded taken row with same | ⟨F, advances, moved⟩
    · exact ⟨t, same, fun changed => absurd rfl changed, fun changed => absurd rfl changed⟩
    · refine ⟨F t, moved, fun changed => ?_, fun changed => ?_⟩
      · obtain ⟨d, hd, u, hu, up, ends⟩ := advances.pending t ht changed
        exact ⟨d, hd, up ▸ advances.ends S hu ends⟩
      · obtain ⟨c, hc, ends⟩ := advances.counted t ht changed
        exact ⟨c, hc, advances.ends S (mem_children.mp hc).1 ends⟩

theorem terminal_absorbing_failed :
    ∃ s, Reachable jobStep Guarded .empty s ∧ s.statusOf ⟨[], "a"⟩ = some .failed ∧
      ∃ s', Reachable jobStep Guarded s s' ∧ s'.tasks.length = 2 ∧
        s'.statusOf ⟨[], "a"⟩ = some .failed := by
  obtain ⟨s, reached, failed, s', later, two⟩ : ∃ s, Reachable jobStep Guarded .empty s ∧
      s.statusOf ⟨[], "a"⟩ = some .failed ∧
      ∃ s', Reachable jobStep Guarded s s' ∧ s'.tasks.length = 2 := by
    obtain ⟨s, reached, failed, s', taken, two⟩ := exists_of_run jobStep Guarded
      .empty [.store (request "a" []), polls, .store (exits "a" 1)]
      (fun s => s.statusOf ⟨[], "a"⟩ = some .failed ∧ ∃ s' ∈ runChecked jobStep Guarded s
        [.release ["broker"], .cancelJob "a" 9, .store (request "b" []), polls],
        s'.tasks.length = 2) (by decide)
    exact ⟨s, reached, failed, s', reachable_of_runChecked taken, two⟩
  exact ⟨s, reached, failed, s', later, two,
    (terminal_absorbing reached).1 s' later _ _ failed rfl⟩

/-- A report for `a` arrives after its lease was released and its job cancelled. In another
run `a` reports twice, and `c` is no longer held back by `b`. -/
theorem terminal_overwritten :
    (∃ s, Reachable jobStep Any .empty s ∧ s.statusOf ⟨[], "a"⟩ = some .cancelled ∧
      ∃ s' ∈ jobStep s (.store (exits "a" 0)), s'.statusOf ⟨[], "a"⟩ = some .completed) ∧
    ∃ s, Reachable jobStep Any .empty s ∧ s.statusOf ⟨[], "a"⟩ = some .completed ∧
      (s.find ⟨[], "c"⟩).map (·.pendingUpstreams) = some 1 ∧
      ∃ s' ∈ jobStep s (.store (exits "a" 0)), s'.statusOf ⟨[], "b"⟩ = some .leased ∧
        (s'.find ⟨[], "c"⟩).map (·.pendingUpstreams) = some 0 := by
  constructor
  · exact exists_of_run jobStep Any .empty
      [.store (request "a" []), polls, .release ["broker"], .cancelJob "a" 2] _ (by decide)
  · exact exists_of_run jobStep Any .empty
      [.store (request "a" []), .store (request "b" []),
        .store (request "c" [("a", .unspecified), ("b", .unspecified)]), polls,
        .store (exits "a" 0)] _ (by decide)

end Velda.TaskStore
