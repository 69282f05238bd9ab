import Velda.TaskStore.Alongside
import Velda.TaskStore.Announcements

/-! What a report changes of the siblings of the task and of its parent. The first turn reaches
the siblings, the later ones only the levels above, and the parent succeeds when the task was
the last of its children and all have succeeded. -/
variable {next : Option Outcome}

namespace Velda.TaskStore
open Lib List Option

variable {s s' : Store} {k base v : TaskKey} {outcome o : Outcome} {rows : List UpdateRow}
  {t : Task} {chain : List Dependency}

section Turns
variable {clock : Nat → Time}

def Task.progress (t : Task) : Status × Int := (t.status, t.pendingUpstreams)

lemma progress_pass (S : Sound s) (h : s.pass base outcome now = some (s', next)) :
    ∃ rows, s.downstreamUpdates base outcome = some rows ∧ ∀ v,
      (s'.find v).map Task.progress = (s.find v).map fun x => (x.settled rows).progress := by
  obtain ⟨_, _, rows, -, -, found, -, counted⟩ := pass_cases S.unique h
  refine ⟨rows, found, fun v => ?_⟩
  have settled (x : Task) : (applyRows rows now x).progress = (x.settled rows).progress :=
    Prod.ext (applyRows_status now x) (applyRows_pendingUpstreams now x)
  cases counted with
  | alone R =>
    rw [R.find, Option.map_map]
    exact map_congr fun x _ => settled x
  | parent _ _ _ R =>
    rw [R.find, Option.map_map]
    refine map_congr fun x _ => ?_
    rw [Function.comp_apply, passed]
    split <;> exact settled x

lemma settled_of_unreached (unreached : ∀ u ∈ rows, u.key ≠ t.key) : t.settled rows = t := by
  have none : firstOutcome rows t.key = none := by
    rw [firstOutcome, map_eq_none_iff, List.find?_eq_none]
    intro u hu
    simp [unreached u hu]
  have zero : upstreamMet rows t.key = 0 := by
    rw [upstreamMet, countP_eq_zero]
    intro u hu
    simp [unreached u hu]
  rw [Task.settled, none, zero]
  simp [Outcome.status]

lemma parentId_of_row (siblings : ∀ d ∈ s.deps, d.upstream.parentId = d.downstream.parentId)
    (found : s.downstreamUpdates base outcome = some rows) (hu : u ∈ rows) :
    u.key.parentId = base.parentId := by
  rcases row_cases found hu with rfl | ⟨d, dep, c, o, chained, -, rfl⟩
  · rfl
  · rw [← chained.parentId siblings]
    exact (siblings d dep).symm

lemma progress_pass_of_ne (S : Sound s) (h : s.pass base outcome now = some (s', next))
    (ne : v.parentId ≠ base.parentId) :
    (s'.find v).map Task.progress = (s.find v).map Task.progress := by
  obtain ⟨rows, found, settled⟩ := progress_pass S h
  rw [settled]
  refine map_congr fun x hx => ?_
  rw [settled_of_unreached]
  intro u hu same
  have level := parentId_of_row S.siblings found hu
  rw [same, find_key hx] at level
  exact ne level

section

variable (R : Reports s base outcome)
  (h : updateTaskStatus base.parentId s clock base.taskId outcome = some s')
include R h

lemma progress_above (above : base.parentId.length < v.parentId.length) :
    (s'.find v).map Task.progress = (s.find v).map Task.progress := by
  refine updateTaskStatus_induction (P := fun u k o => Reports u k o ∧
      k.parentId.length < v.parentId.length ∧
      (u.find v).map Task.progress = (s.find v).map Task.progress)
    (Q := fun u => (u.find v).map Task.progress = (s.find v).map Task.progress)
    ?_ ⟨R, above, rfl⟩ h
  rintro u base outcome now u' next ⟨R, above, same⟩ passed
  have kept := progress_pass_of_ne R.sound passed fun level => above.ne' (congrArg length level)
  refine ⟨fun _ => kept.trans same, fun o climbed => ?_⟩
  obtain ⟨parent, up, R'⟩ := (Advances.pass R passed).2 o climbed
  rw [← up, TaskKey.childrenId, length_cons] at above
  exact ⟨parent, up, R', by omega, kept.trans same⟩

lemma progress_report (level : v.parentId = base.parentId) :
    ∃ rows, s.downstreamUpdates base outcome = some rows ∧
      (s'.find v).map Task.progress = (s.find v).map fun x => (x.settled rows).progress := by
  obtain ⟨x, next, passed, Sx, later⟩ := R.turn h
  obtain ⟨rows, found, settled⟩ := progress_pass R.sound passed
  refine ⟨rows, found, ?_⟩
  rw [← settled]
  rcases later with ⟨-, rfl⟩ | ⟨parent, o, -, up, R', rest⟩
  · rfl
  · refine progress_above R' rest ?_
    rw [level, ← up, TaskKey.childrenId, List.length_cons]
    omega

lemma statusOf_base :
    ∃ status, s'.statusOf base = some (Outcome.status status (some outcome)) := by
  obtain ⟨rows, found, settled⟩ := progress_report R h rfl
  obtain ⟨u, hu, rfl⟩ := R.present
  refine ⟨u.status, ?_⟩
  have status := congrArg (Option.map Prod.fst) settled
  rw [find_of_mem R.sound.unique hu, Option.map_map, Option.map_some, Option.map_some] at status
  have first := firstOutcome_base found (ne_met_of_ran R.ran)
  rw [Store.statusOf, ← first]
  exact status

end

end Turns

def LastChild (s : Store) (k : TaskKey) : Prop :=
  k.parentId ≠ [""] ∧ ∃ p ∈ s.tasks, p.key.childrenId = k.parentId ∧ (p.bump 1).complete = true ∧
    ∀ c ∈ s.children p.key, c.key ≠ k → c.status = .completed

instance (s : Store) (k : TaskKey) : Decidable (LastChild s k) :=
  inferInstanceAs (Decidable (_ ∧ _))

section Parent
variable {now : Time} (R : Reports s base outcome)
  (found : s.downstreamUpdates base outcome = some rows)
include R found

lemma completed_iff_of_ne (ht : t ∈ s.tasks) (ne : t.key ≠ base) :
    (applyRows rows now t).status = .completed ↔ t.status = .completed := by
  rw [applyRows_status]
  cases first : firstOutcome rows t.key with
  | none => rfl
  | some o =>
    obtain ⟨u, hu, rfl⟩ := map_eq_some_iff.mp first
    have holds := List.find?_some hu
    simp only [decide_eq_true_eq] at holds
    obtain ⟨c, chained⟩ := chain_of_row found (mem_of_find?_eq_some hu) holds.2
    rw [holds.1] at chained
    have isOpen := chained.isOpen_of_ne ne
    rw [isOpen_of_mem R.sound.unique ht] at isOpen
    rw [chained.outcome_of_ne ne]
    refine ⟨nofun, fun completed => ?_⟩
    rw [completed] at isOpen
    cases isOpen

lemma completed_iff_base (atKey : t.key = base) :
    (applyRows rows now t).status = .completed ↔ outcome = .success := by
  rw [applyRows_status, atKey, firstOutcome_base found (ne_met_of_ran R.ran)]
  have ran := R.ran
  cases outcome with
  | success => exact ⟨fun _ => rfl, fun _ => rfl⟩
  | fail => exact ⟨nofun, nofun⟩
  | failUpstream => cases ran
  | met => cases ran

lemma resolved_eq_one
    (others : ∀ c ∈ s.tasks, c.key.parentId = base.parentId → c.key ≠ base →
      c.status = .completed) :
    (s.tasks.countP fun t => touched rows t && (applyRows rows now t).resolveTime = some now) =
      1 := by
  have single : (s.tasks.countP fun t =>
      touched rows t && (applyRows rows now t).resolveTime = some now) =
        s.tasks.countP fun t => t.key = base && true := by
    refine countP_congr fun c hc => ?_
    rw [resolved_iff R.sound found R.running hc now]
    simp only [Bool.and_eq_true, Bool.not_eq_true', decide_eq_true_eq, and_true]
    constructor
    · rintro ⟨unended, ended⟩
      by_contra ne
      rcases applyRows_cases R.sound found R.running hc now with ⟨same, -⟩ | ⟨reached, -⟩
      · rw [same, unended] at ended
        cases ended
      · have sibling := (open_of_touched R.sound found R.running hc reached).2
        rw [others c hc sibling ne] at unended
        cases unended
    · intro atKey
      refine ⟨R.running c hc atKey, ?_⟩
      rw [applyRows_status, atKey, firstOutcome_base found (ne_met_of_ran R.ran)]
      exact terminal_of_finished (finished_of_outcome c.status (ne_met_of_ran R.ran))
  obtain ⟨u, hu, rfl⟩ := R.present
  rw [single, countP_key_unique R.sound.unique, find_of_mem R.sound.unique hu]
  rfl

omit R found in
lemma childrenOutcome_success_iff :
    s.childrenOutcome k = .success ↔ ∀ c ∈ s.children k, c.status = .completed := by
  simp [Store.childrenOutcome]

end Parent

lemma next_success_iff (R : Reports s base outcome)
    (h : s.pass base outcome now = some (s', next)) :
    next = some .success ↔ outcome = .success ∧ LastChild s base := by
  obtain ⟨_, n, rows, -, -, found, counts, counted⟩ := pass_cases R.sound.unique h
  cases counted with
  | alone _ ends orphan =>
    subst ends
    refine ⟨nofun, ?_⟩
    rintro ⟨-, notRoot, q, hq, up, -⟩
    exact absurd (orphan q hq up) notRoot
  | @parent parent row up notRoot there rewritten climbs =>
    have untouched : applyRows rows now row = row := by
      refine if_neg fun reached => ?_
      have sibling := (open_of_touched R.sound found R.running (find_mem there) reached).2
      rw [find_key there, ← up] at sibling
      exact absurd (congrArg List.length sibling) (by simp [TaskKey.childrenId])
    have all : s'.childrenOutcome parent = .success ↔ outcome = .success ∧
        ∀ c ∈ s.children parent, c.key ≠ base → c.status = .completed := by
      rw [childrenOutcome_success_iff, rewritten.children, List.forall_mem_map]
      simp only [passed_status]
      constructor
      · intro completed
        obtain ⟨u, hu, atKey⟩ := R.present
        have child : u ∈ s.children parent := mem_children.mpr ⟨hu, by rw [atKey, up]⟩
        refine ⟨(completed_iff_base R found atKey).mp (completed u child), ?_⟩
        intro c hc ne
        exact (completed_iff_of_ne R found (mem_children.mp hc).1 ne).mp (completed c hc)
      · rintro ⟨succeeds, others⟩ c hc
        by_cases atKey : c.key = base
        · exact (completed_iff_base R found atKey).mpr succeeds
        · exact (completed_iff_of_ne R found (mem_children.mp hc).1 atKey).mpr
            (others c hc atKey)
    have one : (∀ c ∈ s.children parent, c.key ≠ base → c.status = .completed) → n = 1 := by
      intro others
      rw [counts]
      exact resolved_eq_one R found fun c hc sibling ne =>
        others c (mem_children.mpr ⟨hc, sibling.trans up.symm⟩) ne
    rw [climbs, untouched]
    constructor
    · intro climbed
      split at climbed
      · next complete =>
        obtain ⟨succeeds, others⟩ := all.mp (Option.some.inj climbed)
        rw [one others] at complete
        have atKey := find_key there
        exact ⟨succeeds, notRoot, row, find_mem there, by rw [atKey, up], complete, by rwa [atKey]⟩
      · cases climbed
    · rintro ⟨succeeds, -, q, hq, up', complete, others⟩
      have atKey : q.key = parent := childrenId_inj (up'.trans up.symm)
      obtain rfl := eq_of_find R.sound.unique there hq atKey
      rw [atKey] at others
      rw [one others, if_pos complete, all.mpr ⟨succeeds, others⟩]

lemma FailChain.mono (deps : s.deps ⊆ s'.deps)
    (isOpen : ∀ d ∈ s.deps, s.isOpen d.downstream = true → s'.isOpen d.downstream = true)
    (h : FailChain s base outcome chain v o) : FailChain s' base outcome chain v o := by
  induction h with
  | base => exact .base
  | link _ dep opened edge ih => exact .link ih (deps dep) (isOpen _ dep opened) edge

lemma allows_iff_edgeOutcome {trigger : Trigger} (st : Status) (ne : o ≠ .met) :
    trigger.allows (Outcome.status st (some o)) = true ↔ edgeOutcome o trigger = .met := by
  cases o <;> cases trigger <;> simp_all [edgeOutcome, Outcome.status, Trigger.allows]

end Velda.TaskStore
