import Velda.Lib.Run
import Velda.TaskStore.Propagation

/-! The dependency counters over whole runs of the store. `Consistent` is what every
operation keeps: counters of queueing tasks are exact, tasks that were leased have
only finished upstreams, and no open task has an upstream that finished against
its trigger. -/
namespace Velda.TaskStore
open Lib List Option Store

/-- `pending_upstreams` of a queueing task counts its upstreams that are not finished. -/
def CountersExact (s : Store) : Prop :=
  ∀ t ∈ s.tasks, t.status = .queueing →
    t.pendingUpstreams = (s.dependenciesOf t.key).countP fun d => s.unfinished d.upstream

instance (s : Store) : Decidable (CountersExact s) :=
  inferInstanceAs (Decidable (∀ t ∈ s.tasks, _ → _))

structure Consistent (s : Store) : Prop where
  unique : s.UniqueKeys
  nodup : s.deps.Nodup
  acyclic : Acyclic s.deps
  owned : ∀ d ∈ s.deps, (s.find d.downstream).isSome
  exact : CountersExact s
  ready : ∀ t ∈ s.tasks, t.status = .leased ∨ t.status = .runningSubtasks →
    ∀ d ∈ s.dependenciesOf t.key, s.unfinished d.upstream = false
  allowed : ∀ t ∈ s.tasks, t.status.open = true → ∀ d ∈ s.dependenciesOf t.key, ∀ st,
    s.statusOf d.upstream = some st → st.finished = true → d.trigger.allows st = true
  leased : ∀ t ∈ s.tasks, t.leaseBy.isSome → t.result = none → t.status = .leased
  fresh : ∀ t ∈ s.tasks, t.status = .queueing → t.leaseBy = none

/-- No task gets two rows too many: a task that would stay queueing has no upstream
that fails along two different chains of dependencies. -/
def Unforked (s : Store) (base : TaskKey) (outcome : Outcome) : Prop :=
  ∀ d ∈ s.deps, s.statusOf d.downstream = some .queueing →
    (∀ e ∈ s.dependenciesOf d.downstream, ∀ c o, FailChain s base outcome c e.upstream o →
      edgeOutcome o e.trigger = .met) →
    ∀ c c' o o', FailChain s base outcome c d.upstream o →
      FailChain s base outcome c' d.upstream o' → c = c'

variable {s : Store} {base k : TaskKey} {outcome : Outcome} {rows : List UpdateRow}

lemma mem_dependenciesOf : d ∈ s.dependenciesOf k ↔ d ∈ s.deps ∧ d.downstream = k := by
  simp [dependenciesOf]

variable {row t : Task} {s' : Store} {o : Outcome} {v : TaskKey} {c : List Dependency}
  {resolved : Nat}

lemma statusOf_of_mem (unique : s.UniqueKeys) (h : t ∈ s.tasks) :
    s.statusOf t.key = some t.status := by
  rw [statusOf, find_of_mem unique h, map_some]

lemma unfinished_of_isOpen (h : s.isOpen k = true) : s.unfinished k = true := by
  unfold isOpen at h
  unfold unfinished
  cases found : s.statusOf k with
  | none => simp [found] at h
  | some status => cases status <;> simp_all [Status.open, Status.finished]

lemma isOpen_of_mem (unique : s.UniqueKeys) (h : t ∈ s.tasks) :
    s.isOpen t.key = t.status.open := by
  rw [isOpen, statusOf_of_mem unique h]

lemma FailChain.unfinished (start : s.unfinished base = true) (h : FailChain s base outcome c v o) :
    s.unfinished v = true := by
  cases h with
  | base => exact start
  | link _ _ isOpen _ => exact unfinished_of_isOpen isOpen

lemma allows_of_edgeOutcome_met {trigger : Trigger} (st : Status) (ne : o ≠ .met)
    (h : edgeOutcome o trigger = .met) : trigger.allows (Outcome.status st (some o)) = true := by
  cases o <;> cases trigger <;> simp_all [edgeOutcome, Outcome.status, Trigger.allows]

lemma finished_of_outcome (st : Status) (ne : o ≠ .met) :
    (Outcome.status st (some o)).finished = true := by
  cases o <;> simp_all [Outcome.status, Status.finished]

lemma not_open_of_finished {st : Status} (h : st.finished = true) : st.open = false := by
  cases st <;> simp_all [Status.finished, Status.open]

lemma unfinished_eq_false_iff :
    s.unfinished k = false ↔ ∃ st, s.statusOf k = some st ∧ st.finished = true := by
  unfold unfinished
  cases s.statusOf k <;> simp

lemma edgeOutcome_met_of_unreached (unreached : ∀ c o, ¬ FailChain s base outcome c v o)
    (isOpen : s.isOpen v = true) (hd : d ∈ s.dependenciesOf v)
    (chain : FailChain s base outcome c d.upstream o) : edgeOutcome o d.trigger = .met := by
  obtain ⟨dep, rfl⟩ := mem_dependenciesOf.mp hd
  refine (edgeOutcome_cases o d.trigger).resolve_left fun fails => ?_
  exact unreached _ _ (.link chain dep isOpen fails)

/-- The task a pass starts from: leased or waiting for its subtasks, its result stored. -/
structure Settling (s : Store) (base : TaskKey) (row : Task) : Prop where
  found : s.find base = some row
  settling : row.status = .leased ∨ row.status = .runningSubtasks
  reported : row.leaseBy.isSome → row.result ≠ none

lemma Settling.unfinished (B : Settling s base row) : s.unfinished base = true := by
  rw [Store.unfinished, Store.statusOf, B.found]
  rcases B.settling with h | h <;> simp [h, Status.finished]

lemma firstOutcome_cases (acyclic : Acyclic s.deps)
    (found : s.downstreamUpdates base outcome = some rows) (start : outcome ≠ .met) (v : TaskKey) :
    (firstOutcome rows v = none ∧ failCount rows v = 0 ∧ ∀ c o, ¬ FailChain s base outcome c v o) ∨
    ∃ c o, FailChain s base outcome c v o ∧ firstOutcome rows v = some o ∧ o ≠ .met := by
  by_cases zero : failCount rows v = 0
  · refine .inl ⟨firstOutcome_eq_none zero, zero, fun c o h => ?_⟩
    have := (failCount_pos_iff start found).mpr ⟨c, o, h⟩
    omega
  · obtain ⟨c, o, h⟩ := (failCount_pos_iff start found).mp (Nat.pos_of_ne_zero zero)
    obtain ⟨rank, ranked⟩ := acyclic
    exact .inr ⟨c, o, h, firstOutcome_of_chain ranked start found h, h.outcome_ne_met start⟩

lemma statusOf_after (R : Rewritten s s' (applyRows rows now)) (v : TaskKey) :
    s'.statusOf v = (s.statusOf v).map fun st => Outcome.status st (firstOutcome rows v) := by
  rw [statusOf, statusOf, R.find]
  cases h : s.find v with
  | none => rfl
  | some t => simp [applyRows_status, find_key h]

lemma FailChain.statusOf (found : s.find base = some row) (h : FailChain s base outcome c v o) :
    ∃ st, s.statusOf v = some st := by
  by_cases atBase : v = base
  · exact ⟨row.status, by rw [atBase, Store.statusOf, found, map_some]⟩
  · have isOpen := h.isOpen_of_ne atBase
    unfold Store.isOpen at isOpen
    cases hs : s.statusOf v with
    | none => simp [hs] at isOpen
    | some st => exact ⟨st, rfl⟩

lemma unfinished_after (acyclic : Acyclic s.deps)
    (found : s.downstreamUpdates base outcome = some rows) (start : outcome ≠ .met)
    (baseRow : s.find base = some row) (unfinished : s.unfinished base = true)
    (after : s'.statusOf v = (s.statusOf v).map fun st => Outcome.status st (firstOutcome rows v)) :
    (if s'.unfinished v then 1 else 0) + min (failCount rows v) 1 =
      if s.unfinished v then 1 else 0 := by
  rcases firstOutcome_cases acyclic found start v with ⟨none, zero, _⟩ | ⟨c, o, h, some, ne⟩
  · have same : s'.unfinished v = s.unfinished v := by
      unfold Store.unfinished
      rw [after, none]
      cases s.statusOf v <;> rfl
    rw [same, zero]
    rfl
  · have before := h.unfinished unfinished
    have positive := (failCount_pos_iff start found).mpr ⟨c, o, h⟩
    obtain ⟨st, hs⟩ := h.statusOf baseRow
    have finished : s'.unfinished v = false := by
      rw [unfinished_eq_false_iff]
      exact ⟨_, by rw [after, hs, some]; rfl, finished_of_outcome st ne⟩
    rw [finished, before]
    simp only [Bool.false_eq_true, if_false, if_true]
    omega

section Pass
variable (C : Consistent s) (found : s.downstreamUpdates base outcome = some rows)
include C found

lemma queueing_of_row (unfinished : s.unfinished base = true) (mem : t ∈ s.tasks)
    (ne : t.key ≠ base) (hr : r ∈ rows) (own : r.key = t.key) : t.status = .queueing := by
  rcases row_cases found hr with rfl | ⟨d, dep, c, o, h, isOpen, rfl⟩
  · exact absurd own.symm ne
  · change d.downstream = t.key at own
    rw [own, isOpen_of_mem C.unique mem] at isOpen
    by_contra notQueueing
    have busy : t.status = .leased ∨ t.status = .runningSubtasks := by
      revert isOpen notQueueing
      cases t.status <;> simp [Status.open]
    have settled := C.ready t mem busy d (mem_dependenciesOf.mpr ⟨dep, own⟩)
    rw [h.unfinished unfinished] at settled
    cases settled

variable (start : outcome ≠ .met)
include start

lemma unreached_of_open (t : Task) (now : Time) (h : (applyRows rows now t).status.open = true) :
    (∀ c o, ¬ FailChain s base outcome c t.key o) ∧ (applyRows rows now t).status = t.status := by
  rw [applyRows_status] at h ⊢
  rcases firstOutcome_cases C.acyclic found start t.key with ⟨none, _, no⟩ | ⟨c, o, _, some, ne⟩
  · rw [none]
    exact ⟨no, rfl⟩
  · rw [some, not_open_of_finished (finished_of_outcome _ ne)] at h
    cases h

end Pass

lemma propagate_rewritten (h : s.propagate base outcome now = some (s', resolved)) :
    ∃ rows, s.downstreamUpdates base outcome = some rows ∧
      Rewritten s s' (applyRows rows now) ∧ resolved = s.tasks.countP fun t =>
        touched rows t && decide ((applyRows rows now t).resolveTime = some now) := by
  obtain ⟨rows, found, eq⟩ := map_eq_some_iff.mp h
  cases eq
  refine ⟨rows, found, ⟨rfl, rfl, applyRows_key now⟩, ?_⟩
  rw [← countP_eq_length_filter, countP_map, countP_filter]
  exact countP_congr fun t _ => by simp [and_comm]

def Task.bump (t : Task) (resolved : Nat) : Task :=
  { t with completedChildren := t.completedChildren + resolved }

def Task.complete (t : Task) : Bool :=
  t.status = .runningSubtasks && t.totalChildren.any (· ≤ t.completedChildren)

lemma completeChildren_cases {parent : TaskKey} {next : Option Outcome}
    (unique : s.UniqueKeys) (h : s.completeChildren parent resolved = (s', next)) :
    (s.find parent = none ∧ s' = s ∧ next = none) ∨ ∃ row, s.find parent = some row ∧
        Rewritten s s' (fun t => if t.key = parent then t.bump resolved else t) ∧
        next = if (row.bump resolved).complete then some (s'.childrenOutcome parent) else none := by
  unfold Store.completeChildren at h
  split at h
  · next missing =>
    cases h
    exact .inl ⟨missing, rfl, rfl⟩
  · next row hrow =>
    have store : s' = s.update parent
        (fun t => { t with completedChildren := row.completedChildren + resolved }) ∧
        next = if (row.bump resolved).complete then some (s'.childrenOutcome parent) else none := by
      simp only at h
      split at h
      · next total running hasTotal =>
        simp only [Task.complete, Task.bump, running]
        split at h <;> cases h <;> simp_all
      · next notWaiting =>
        cases h
        refine ⟨rfl, (if_neg ?_).symm⟩
        simp only [Task.complete, Task.bump, Bool.and_eq_true, not_and, Bool.not_eq_true]
        intro running
        cases total : row.totalChildren with
        | none => rfl
        | some n => exact (notWaiting n (of_decide_eq_true running) total).elim
    obtain ⟨rfl, climbs⟩ := store
    refine .inr ⟨row, hrow, ⟨?_, rfl, fun t => by split <;> rfl⟩, climbs⟩
    refine map_congr_left fun t ht => ?_
    split
    · next atKey =>
      rw [← atKey, find_of_mem unique ht] at hrow
      cases hrow
      rfl
    · rfl

lemma propagate_deps (h : s.propagate base outcome now = some (s', resolved)) :
    s'.deps = s.deps := by
  obtain ⟨_, -, R, -⟩ := propagate_rewritten h
  exact R.deps

lemma completeChildren_deps {parent : TaskKey} {next : Option Outcome}
    (h : s.completeChildren parent resolved = (s', next)) : s'.deps = s.deps := by
  unfold Store.completeChildren at h
  grind [Store.update]

/-- Rewriting rows keeps the rows of dependencies, so only the fields that look at statuses,
counters and leases are left to show. -/
lemma Consistent.rewritten {f : Task → Task} (C : Consistent s) (R : Rewritten s s' f)
    (exact : ∀ t ∈ s.tasks, (f t).status = .queueing → (f t).pendingUpstreams =
      (s.dependenciesOf t.key).countP fun d => s'.unfinished d.upstream)
    (ready : ∀ t ∈ s.tasks, (f t).status = .leased ∨ (f t).status = .runningSubtasks →
      ∀ d ∈ s.dependenciesOf t.key, s'.unfinished d.upstream = false)
    (allowed : ∀ t ∈ s.tasks, (f t).status.open = true → ∀ d ∈ s.dependenciesOf t.key, ∀ st,
      s'.statusOf d.upstream = some st → st.finished = true → d.trigger.allows st = true)
    (leased : ∀ t ∈ s.tasks, (f t).leaseBy.isSome → (f t).result = none → (f t).status = .leased)
    (fresh : ∀ t ∈ s.tasks, (f t).status = .queueing → (f t).leaseBy = none) : Consistent s' := by
  refine ⟨R.uniqueKeys C.unique, R.deps ▸ C.nodup, R.deps ▸ C.acyclic, ?_, ?_, ?_, ?_, ?_, ?_⟩
  · intro d mem
    rw [R.find, isSome_map]
    exact C.owned d (R.deps ▸ mem)
  all_goals
    intro t' mem
    rw [R.tasks] at mem
    obtain ⟨t, ht, rfl⟩ := mem_map.mp mem
    try rw [R.key, R.dependenciesOf]
  · exact exact t ht
  · exact ready t ht
  · exact allowed t ht
  · exact leased t ht
  · exact fresh t ht

lemma Consistent.propagate (C : Consistent s) (B : Settling s base row) (start : outcome ≠ .met)
    (unforked : Unforked s base outcome) (h : s.propagate base outcome now = some (s', resolved)) :
    Consistent s' := by
  obtain ⟨rows, found, R, -⟩ := propagate_rewritten h
  obtain ⟨rank, ranked⟩ := C.acyclic
  have counts (v : TaskKey) := unfinished_after C.acyclic found start B.found B.unfinished
    (statusOf_after R v)
  refine C.rewritten R ?_ ?_ ?_ ?_ ?_
  · intro t ht queueing
    obtain ⟨unreached, same⟩ := unreached_of_open C found start t now (by rw [queueing]; rfl)
    rw [same] at queueing
    have ne : t.key ≠ base := by
      intro atBase
      exact unreached [] outcome (atBase ▸ .base)
    have isOpen : s.isOpen t.key = true := by rw [isOpen_of_mem C.unique ht, queueing]; rfl
    have stays : ∀ e ∈ s.dependenciesOf t.key, ∀ c o,
        FailChain s base outcome c e.upstream o → edgeOutcome o e.trigger = .met :=
      fun _ he _ _ => edgeOutcome_met_of_unreached unreached isOpen he
    have once : ∀ d ∈ s.dependenciesOf t.key, failCount rows d.upstream ≤ 1 := by
      intro d hd
      obtain ⟨dep, own⟩ := mem_dependenciesOf.mp hd
      refine failCount_le_one ranked C.nodup start found (unforked d dep ?_ (own ▸ stays))
      rw [own, statusOf_of_mem C.unique ht, queueing]
    have sum := countP_add_sum (l := s.dependenciesOf t.key)
      (by
        intro d hd
        have count := counts d.upstream
        rwa [min_eq_left (once d hd)] at count)
    rw [applyRows_pendingUpstreams, C.exact t ht queueing, upstreamMet_eq_countP_key found ne,
      countP_key found ne isOpen]
    omega
  · intro t ht busy d hd
    obtain ⟨_, same⟩ := unreached_of_open C found start t now (by
      rcases busy with h | h <;> rw [h] <;> rfl)
    rw [same] at busy
    have count : s'.unfinished d.upstream = false ∧ failCount rows d.upstream = 0 := by
      simpa [C.ready t ht busy d hd] using counts d.upstream
    exact count.1
  · intro t ht opened d hd st hst fin
    obtain ⟨unreached, same⟩ := unreached_of_open C found start t now opened
    rw [same] at opened
    rw [statusOf_after R] at hst
    obtain ⟨before, hu, rfl⟩ := map_eq_some_iff.mp hst
    rcases firstOutcome_cases C.acyclic found start d.upstream with ⟨none, _⟩ | ⟨c, o, chain, some, ne⟩
    · rw [none] at fin ⊢
      exact C.allowed t ht opened d hd _ hu fin
    · rw [some]
      have isOpen : s.isOpen t.key = true := by rw [isOpen_of_mem C.unique ht, opened]
      exact allows_of_edgeOutcome_met _ ne
        (edgeOutcome_met_of_unreached unreached isOpen hd chain)
  · intro t ht hasLease noResult
    rw [applyRows_leaseBy] at hasLease
    rw [applyRows_result] at noResult
    have leased := C.leased t ht hasLease noResult
    have ne : t.key ≠ base := by
      intro atBase
      have same : t = row := eq_of_find C.unique B.found ht atBase
      exact B.reported (same ▸ hasLease) (same ▸ noResult)
    have unmet : ∀ r ∈ rows, r.key ≠ t.key := by
      intro r hr own
      have queueing := queueing_of_row C found B.unfinished ht ne hr own
      rw [leased] at queueing
      cases queueing
    have untouched : touched rows t = false := by
      simpa [touched] using unmet
    rw [applyRows, untouched]
    exact leased
  · intro t ht queueing
    obtain ⟨_, same⟩ := unreached_of_open C found start t now (by rw [queueing]; rfl)
    rw [applyRows_leaseBy]
    exact C.fresh t ht (same ▸ queueing)

lemma Consistent.map {f : Task → Task} (C : Consistent s) (R : Rewritten s s' f)
    (status : ∀ t ∈ s.tasks, (f t).status = t.status ∨
      t.status.open = true ∧ (f t).status.open = true ∧ (f t).status ≠ .queueing ∧
        ∀ d ∈ s.dependenciesOf t.key, s.unfinished d.upstream = false)
    (pending : ∀ t ∈ s.tasks, (f t).status = .queueing →
      (f t).pendingUpstreams = t.pendingUpstreams)
    (leased : ∀ t ∈ s.tasks, (f t).leaseBy.isSome → (f t).result = none → (f t).status = .leased)
    (fresh : ∀ t ∈ s.tasks, (f t).status = .queueing → (f t).leaseBy = none) : Consistent s' := by
  have finished : ∀ k st, st.finished = true → (s'.statusOf k = some st ↔ s.statusOf k = some st) := by
    intro k st fin
    rw [statusOf, statusOf, R.find, Option.map_map]
    cases hf : s.find k with
    | none => rfl
    | some t =>
      simp only [map_some, Function.comp_apply, Option.some.injEq]
      rcases status t (find_mem hf) with same | ⟨before, after, _⟩
      · rw [same]
      · constructor
        · rintro rfl
          rw [not_open_of_finished fin] at after
          cases after
        · rintro rfl
          rw [not_open_of_finished fin] at before
          cases before
  have unfinished : ∀ k, s'.unfinished k = s.unfinished k := by
    intro k
    rw [Bool.eq_iff_iff, ← not_iff_not, Bool.not_eq_true, Bool.not_eq_true,
      unfinished_eq_false_iff, unfinished_eq_false_iff]
    exact exists_congr fun st => and_congr_left (finished k st)
  refine C.rewritten R ?_ ?_ ?_ leased fresh
  · intro t ht queueing
    have same : (f t).status = t.status :=
      (status t ht).resolve_right fun moved => moved.2.2.1 queueing
    simp only [unfinished, pending t ht queueing]
    exact C.exact t ht (same ▸ queueing)
  · intro t ht busy d hd
    rw [unfinished]
    rcases status t ht with same | ⟨_, _, _, settled⟩
    · exact C.ready t ht (same ▸ busy) d hd
    · exact settled d hd
  · intro t ht opened d hd st hst fin
    refine C.allowed t ht ?_ d hd st ((finished _ st fin).mp hst) fin
    rcases status t ht with same | ⟨before, _⟩
    · exact same ▸ opened
    · exact before

lemma Consistent.completeChildren {parent : TaskKey} {next : Option Outcome} (C : Consistent s)
    (h : s.completeChildren parent resolved = (s', next)) : Consistent s' := by
  rcases completeChildren_cases C.unique h with ⟨-, rfl, -⟩ | ⟨row, -, R, -⟩
  · exact C
  · refine C.map R ?_ ?_ ?_ ?_
    · intro t _
      left
      split <;> rfl
    · intro t _ _
      split <;> rfl
    · intro t ht
      split <;> exact C.leased t ht
    · intro t ht
      split <;> exact C.fresh t ht

lemma Settling.of_completeChildren {parent : TaskKey} {next : Outcome} (C : Consistent s)
    (h : s.completeChildren parent resolved = (s', some next)) :
    (∃ row, Settling s' parent row) ∧ next ≠ .met := by
  rcases completeChildren_cases C.unique h with ⟨-, -, never⟩ | ⟨row, hrow, R, climbs⟩
  · cases never
  · split at climbs
    · next complete =>
      have running : row.status = .runningSubtasks := by
        simp only [Task.complete, Bool.and_eq_true, decide_eq_true_eq] at complete
        exact complete.1
      refine ⟨⟨row.bump resolved, ?_, .inr running, fun hasLease noResult => ?_⟩, ?_⟩
      · rw [R.find, hrow, map_some, if_pos (find_key hrow)]
      · have leased := C.leased row (find_mem hrow) hasLease noResult
        rw [running] at leased
        cases leased
      · rw [Option.some.inj climbs, childrenOutcome]
        split <;> simp
    · cases climbs

/-- Every pass of the loop of `updateTaskStatus` is `Unforked` in the store it starts from. -/
def PassesUnforked : (parentId : List Name) → Store → (clock : Nat → Time) → Name → Outcome → Prop
  | [], s, _, taskId, outcome => Unforked s ⟨[], taskId⟩ outcome
  | p :: grand, s, clock, taskId, outcome =>
    Unforked s ⟨p :: grand, taskId⟩ outcome ∧
      ∀ s' resolved, s.propagate ⟨p :: grand, taskId⟩ outcome (clock 0) = some (s', resolved) →
        p :: grand ≠ [""] → ∀ s'' next, s'.completeChildren ⟨grand, p⟩ resolved = (s'', some next) →
          PassesUnforked grand s'' (fun i => clock (i + 1)) p next

lemma Consistent.updateTaskStatus {parentId : List Name} {clock : Nat → Time} (C : Consistent s)
    (B : Settling s ⟨parentId, taskId⟩ row) (start : outcome ≠ .met)
    (clean : PassesUnforked parentId s clock taskId outcome)
    (h : updateTaskStatus parentId s clock taskId outcome = some s') : Consistent s' := by
  induction parentId generalizing s clock taskId outcome row with
  | nil =>
    obtain ⟨⟨t, resolved⟩, passed, rfl⟩ := map_eq_some_iff.mp h
    exact C.propagate B start clean passed
  | cons p grand ih =>
    obtain ⟨⟨t, resolved⟩, passed, rest⟩ := bind_eq_some_iff.mp h
    have C' := C.propagate B start clean.1 passed
    simp only at rest
    split at rest
    · cases rest
      exact C'
    · next notRoot =>
      split at rest
      · next s'' counted =>
        cases rest
        exact C'.completeChildren counted
      · next s'' next counted =>
        obtain ⟨⟨parent, settling⟩, start'⟩ := Settling.of_completeChildren C' counted
        exact ih (C'.completeChildren counted) settling start'
          (clean.2 t resolved passed notRoot s'' next counted) rest

/-- The climb to the parents ends: on an acyclic graph `updateTaskStatus` always returns. -/
lemma updateTaskStatus_isSome (acyclic : Acyclic s.deps) (parentId : List Name)
    (clock : Nat → Time) (taskId : Name) (outcome : Outcome) :
    (updateTaskStatus parentId s clock taskId outcome).isSome := by
  induction parentId generalizing s clock taskId outcome with
  | nil =>
    simpa [updateTaskStatus, propagate] using downstreamUpdates_isSome acyclic _ _
  | cons p grand ih =>
    obtain ⟨rows, found⟩ := isSome_iff_exists.mp
      (downstreamUpdates_isSome acyclic ⟨p :: grand, taskId⟩ outcome)
    simp only [updateTaskStatus, propagate, found, map_some, bind_some]
    split
    · rfl
    · split
      · rfl
      · next s'' next counted =>
        refine ih ?_ _ _ _
        exact completeChildren_deps counted ▸ acyclic

lemma updateTaskFinalResult_isSome (acyclic : Acyclic s.deps) (result : FinalResult)
    (clock : Nat → Time) (exists_row : (s.find k).isSome) :
    (updateTaskFinalResult s k result clock).isSome := by
  obtain ⟨row, found⟩ := isSome_iff_exists.mp exists_row
  unfold updateTaskFinalResult
  split
  · rfl
  · simp only [found]
    split
    · rfl
    · exact updateTaskStatus_isSome (by exact acyclic) ..

lemma Consistent.recordResult (C : Consistent s) (result : FinalResult) (now : Time)
    (found : s.find k = some row) (leased : row.status = .leased) :
    Consistent (s.recordResult k result now) := by
  have own : ∀ t ∈ s.tasks, t.key = k → t = row := fun t => eq_of_find C.unique found
  refine C.map ⟨rfl, rfl, fun t => by split <;> rfl⟩ ?_ ?_ ?_ ?_
  · intro t ht
    split
    · next atKey =>
      obtain rfl := own t ht atKey
      simp only
      split
      · exact .inr ⟨by rw [leased]; rfl, rfl, by simp, C.ready t ht (.inl leased)⟩
      · exact .inl rfl
    · exact .inl rfl
  · intro t _ _
    split <;> rfl
  · intro t ht
    split
    · intro _ noResult
      cases noResult
    · exact C.leased t ht
  · intro t ht
    split
    · next atKey =>
      obtain rfl := own t ht atKey
      simp only [leased]
      split <;> simp
    · exact C.fresh t ht

lemma Settling.of_recordResult (result : FinalResult) (now : Time) (found : s.find k = some row)
    (leased : row.status = .leased) : ∃ row', Settling (s.recordResult k result now) k row' := by
  refine ⟨_, find_update (fun _ => rfl) found, ?_, ?_⟩
  · simp only [leased]
    split
    · exact .inr rfl
    · exact .inl rfl
  · simp

lemma outcome_ne_met (r : BatchTaskResult) : r.outcome ≠ .met := by
  unfold BatchTaskResult.outcome
  split <;> simp

/-- The passes a report makes, when it makes any, are `Unforked`. -/
def ReportUnforked (s : Store) (k : TaskKey) (result : FinalResult) (clock : Nat → Time) : Prop :=
  ∀ row, s.find k = some row → ¬ (s.children k).length > row.completedChildren →
    PassesUnforked k.parentId (s.recordResult k result (clock 0)) (fun i => clock (i + 1))
      k.taskId result.payload.outcome

lemma Consistent.updateTaskFinalResult {clock : Nat → Time} (C : Consistent s)
    (found : s.find k = some row) (hasLease : row.leaseBy.isSome) (noResult : row.result = none)
    (finished : result.cancelled = false) (clean : ReportUnforked s k result clock)
    (h : updateTaskFinalResult s k result clock = some s') : Consistent s' := by
  have leased := C.leased row (find_mem found) hasLease noResult
  have recorded := C.recordResult result (clock 0) found leased
  simp only [TaskStore.updateTaskFinalResult, finished, Bool.false_eq_true, if_false, found] at h
  split at h
  · cases h
    refine recorded.map ⟨(map_id _).symm, rfl, fun _ => rfl⟩ (fun _ _ => .inl rfl)
      (fun _ _ _ => rfl) recorded.leased recorded.fresh
  · next done =>
    obtain ⟨row', settling⟩ := Settling.of_recordResult result (clock 0)
      found leased
    exact recorded.updateTaskStatus settling (outcome_ne_met _) (clean row found done) h

lemma ready_of_available (unique : s.UniqueKeys) (ht : t ∈ s.tasks)
    (chosen : s.availableTasks.any (·.key = t.key) = true) :
    t.status = .queueing ∧ t.pendingUpstreams = 0 := by
  obtain ⟨a, ha, same⟩ := any_eq_true.mp chosen
  have sorted := mem_of_mem_take ha
  rw [mem_insertionSort, mem_filter] at sorted
  have eq : a = t := by
    have h := find_of_mem unique ht
    rw [← of_decide_eq_true same, find_of_mem unique sorted.1] at h
    exact Option.some.inj h
  simpa [eq] using sorted.2

lemma Consistent.upstreams_finished (C : Consistent s) (ht : t ∈ s.tasks)
    (queueing : t.status = .queueing) (zero : t.pendingUpstreams = 0) :
    ∀ d ∈ s.dependenciesOf t.key, s.unfinished d.upstream = false := by
  have exact := C.exact t ht queueing
  rw [zero] at exact
  have none := countP_eq_zero.mp (Int.ofNat_eq_zero.mp exact.symm)
  intro d hd
  simpa using none d hd

lemma Consistent.pollTasksOnce (C : Consistent s) (leaser : String) :
    Consistent (pollTasksOnce s leaser).1 := by
  refine C.map ⟨rfl, rfl, fun t => by split <;> rfl⟩ ?_ ?_ ?_ ?_
  · intro t ht
    split
    · next chosen =>
      obtain ⟨queueing, zero⟩ := ready_of_available C.unique ht chosen
      exact .inr ⟨by rw [queueing]; rfl, rfl, by simp, C.upstreams_finished ht queueing zero⟩
    · exact .inl rfl
  · intro t _ _
    split <;> rfl
  · intro t ht
    split
    · exact fun _ _ => rfl
    · exact C.leased t ht
  · intro t ht
    split
    · intro queueing
      cases queueing
    · exact C.fresh t ht

end Velda.TaskStore
