import Velda.TaskStore.Finality

/-! Two stores that differ in one task more, with its dependencies, and in the times of the
rows. A report does the same in both, as long as no chain of failures runs through the
additional task and the parent of that task does not end. -/
variable {nowA nowB : Time} {parent : TaskKey} {nextA nextB : Option Outcome}

namespace Velda.TaskStore
open Lib List Option Store

variable {a b a' b' : Store} {k base : TaskKey} {outcome : Outcome} {rows : List UpdateRow}
  {t : Task} {added : List Dependency}

def Task.untimed (t : Task) : Task :=
  { t with createTime := 0, startTime := none, finishTime := none, resolveTime := none }

/-- `a` has the rows of `b` up to their times, and one more task with its dependencies. -/
structure Alongside (b a : Store) (t : Task) (added : List Dependency) : Prop where
  tasks : a.tasks.map Task.untimed = b.tasks.map Task.untimed ++ [t]
  deps : a.deps = b.deps ++ added
  own : ∀ d ∈ added, d.downstream = t.key
  siblings : ∀ d ∈ added, d.upstream.parentId = t.key.parentId
  free : b.find t.key = none
  foreign : ∀ d ∈ b.deps, d.downstream ≠ t.key

lemma find_untimed (s : Store) (k : TaskKey) :
    (s.tasks.map Task.untimed).find? (·.key = k) = (s.find k).map Task.untimed :=
  find_map Task.untimed (fun _ => rfl) k

lemma statusOf_eq (s : Store) (k : TaskKey) :
    s.statusOf k = ((s.find k).map Task.untimed).map (·.status) := by
  rw [statusOf, Option.map_map]
  rfl

namespace Alongside

section

variable (h : Alongside b a t added)
include h

lemma find_of_ne (ne : k ≠ t.key) :
    (a.find k).map Task.untimed = (b.find k).map Task.untimed := by
  rw [← find_untimed, ← find_untimed, h.tasks, List.find?_append]
  simp [Ne.symm ne]

lemma find_self : (a.find t.key).map Task.untimed = some t := by
  rw [← find_untimed, h.tasks, List.find?_append, find_untimed, h.free]
  simp

lemma statusOf_of_ne (ne : k ≠ t.key) : a.statusOf k = b.statusOf k := by
  rw [statusOf_eq, statusOf_eq, h.find_of_ne ne]

lemma statusOf_self : a.statusOf t.key = some t.status := by
  rw [statusOf_eq, h.find_self]
  rfl

lemma isOpen_of_ne (ne : k ≠ t.key) : a.isOpen k = b.isOpen k := by
  rw [isOpen, isOpen, h.statusOf_of_ne ne]

lemma isOpen_self : a.isOpen t.key = t.status.open := by
  rw [isOpen, h.statusOf_self]

lemma dependenciesOf_self : a.dependenciesOf t.key = added := by
  rw [dependenciesOf, h.deps, filter_append]
  have none : b.deps.filter (·.downstream = t.key) = [] :=
    List.filter_eq_nil_iff.mpr fun d hd => by simpa using h.foreign d hd
  have all : added.filter (·.downstream = t.key) = added :=
    List.filter_eq_self.mpr fun d hd => by simpa using h.own d hd
  rw [none, all, List.nil_append]

lemma downstreamRows_filter (u : UpdateRow) :
    (a.downstreamRows u).filter (·.key ≠ t.key) = b.downstreamRows u := by
  unfold downstreamRows
  rw [List.filter_map, List.filter_filter, h.deps, List.filter_append]
  have none : added.filter (fun d => (decide (d.downstream ≠ t.key)) && decide (d.upstream = u.key ∧
      a.isOpen d.downstream = true ∧ u.outcome ≠ .met)) = [] :=
    filter_eq_nil_iff.mpr fun d hd => by simp [h.own d hd]
  have same : b.deps.filter (fun d => (decide (d.downstream ≠ t.key)) && decide (d.upstream = u.key ∧
      a.isOpen d.downstream = true ∧ u.outcome ≠ .met)) = b.deps.filter fun d =>
        d.upstream = u.key ∧ b.isOpen d.downstream = true ∧ u.outcome ≠ .met :=
    filter_congr fun d hd => by simp [h.foreign d hd, h.isOpen_of_ne (h.foreign d hd)]
  change ((b.deps.filter (fun d => (decide (d.downstream ≠ t.key)) && _)) ++
    added.filter (fun d => (decide (d.downstream ≠ t.key)) && _)).map _ = _
  rw [none, same, append_nil]

end

/-- No dependency of the additional task fails by the outcome, as long as the task is open. -/
def Calm (b : Store) (t : Task) (added : List Dependency) (base : TaskKey) (outcome : Outcome) :
    Prop :=
  t.status.open = true → ∀ d ∈ added, ∀ c o, FailChain b base outcome c d.upstream o →
    edgeOutcome o d.trigger = .met

lemma rows_filter (h : Alongside b a t added) (ne : base ≠ t.key)
    (calm : Calm b t added base outcome) (foundA : a.downstreamUpdates base outcome = some rowsA)
    (foundB : b.downstreamUpdates base outcome = some rowsB) :
    rowsA.filter (·.key ≠ t.key) = rowsB ∧ ∀ r ∈ rowsA, r.key = t.key → r.outcome = .met := by
  let p (u : UpdateRow) : Prop := (u.outcome ≠ .met →
    ∃ chain, FailChain b base outcome chain u.key u.outcome) ∧ (u.key = t.key → u.outcome = .met)
  have start : ∀ r ∈ [⟨base, outcome⟩], p r := by
    intro r mem
    obtain rfl := mem_singleton.mp mem
    exact ⟨fun _ => ⟨[], .base⟩, fun same => absurd same ne⟩
  have handed : ∀ u, p u → ∀ r ∈ a.downstreamRows u, p r := by
    intro u holds r produced
    obtain ⟨d, dep, up, isOpen, started, rfl⟩ := mem_downstreamRows.mp produced
    obtain ⟨chain, chained⟩ := holds.1 started
    rw [← up] at chained
    rw [h.deps, mem_append] at dep
    rcases dep with old | new
    · have other := h.foreign d old
      rw [h.isOpen_of_ne other] at isOpen
      refine ⟨fun fails => ?_, fun same => absurd same other⟩
      have edge := (edgeOutcome_cases u.outcome d.trigger).resolve_right fails
      exact ⟨d :: chain, edge ▸ .link chained old isOpen edge⟩
    · rw [h.own d new, h.isOpen_self] at isOpen
      have met := calm isOpen d new chain _ chained
      exact ⟨fun fails => absurd met fails, fun _ => met⟩
  have holds := recursiveQuery_induction start handed foundA
  refine ⟨?_, fun r mem => (holds r mem).2⟩
  have filtered := recursiveQuery_filter b.downstreamRows (fun r => r.key ≠ t.key) start handed
    (fun u _ _ => h.downstreamRows_filter u) ?_ foundA
  · rw [filter_cons_of_pos (by simpa using ne), filter_nil] at filtered
    have more : b.deps.length + 1 ≤ a.deps.length + 1 := by
      rw [h.deps, length_append]
      omega
    exact Option.some.inj (filtered.symm.trans (recursiveQuery_mono foundB more))
  · intro u holds keeps
    have met := holds.2 (by simpa using keeps)
    have none : a.downstreamRows u = [] := by
      refine eq_nil_iff_forall_not_mem.mpr fun r mem => ?_
      obtain ⟨-, -, -, -, started, -⟩ := mem_downstreamRows.mp mem
      exact started met
    rw [none, filter_nil]

end Alongside

lemma find_eq_none_iff (s : Store) (k : TaskKey) : s.find k = none ↔ k ∉ s.tasks.map (·.key) := by
  simp [find]

def Task.counted (t : Task) (n : Nat) : Task :=
  { t with pendingUpstreams := t.pendingUpstreams - n }

def Task.settled (rows : List UpdateRow) (t : Task) : Task :=
  { t with
    status := Outcome.status t.status (firstOutcome rows t.key)
    pendingUpstreams := t.pendingUpstreams - upstreamMet rows t.key }

lemma untimed_applyRows (rows : List UpdateRow) (now : Time) (t : Task) :
    (applyRows rows now t).untimed = t.untimed.settled rows := by
  have status := @applyRows_status rows now t
  have pending := @applyRows_pendingUpstreams rows now t
  unfold applyRows at status pending ⊢
  split
  · rfl
  · next untouched =>
    rw [if_neg untouched] at status pending
    simp only [Task.untimed, Task.settled, ← status, ← pending]

lemma resolved_eq (S : Sound s) (running : s.running base)
    (h : s.propagate base outcome now = some (s', resolved)) :
    ∃ rows, s.downstreamUpdates base outcome = some rows ∧
      s'.tasks.map Task.untimed = (s.tasks.map Task.untimed).map (Task.settled rows) ∧
      s'.deps = s.deps ∧ resolved = (s.tasks.map Task.untimed).countP fun x =>
        !x.status.terminal && (x.settled rows).status.terminal := by
  obtain ⟨rows, found, R, counts⟩ := propagate_rewritten h
  refine ⟨rows, found, ?_, R.deps, ?_⟩
  · rw [R.tasks, List.map_map, List.map_map]
    exact map_congr_left fun x _ => untimed_applyRows rows now x
  · rw [counts, countP_map]
    refine countP_congr fun x hx => ?_
    rw [resolved_iff S found running hx now]
    have same : (x.untimed.settled rows).status = (applyRows rows now x).status := by
      rw [← untimed_applyRows rows now x]
      rfl
    simp only [Function.comp_apply, same]
    rfl

namespace Alongside

section Propagate
variable {rowsA rowsB : List UpdateRow} (h : Alongside b a t added) (ne : base ≠ t.key)
  (calm : Calm b t added base outcome) (foundA : a.downstreamUpdates base outcome = some rowsA)
  (foundB : b.downstreamUpdates base outcome = some rowsB)
include h ne calm foundA foundB

lemma firstOutcome_of_ne (other : k ≠ t.key) : firstOutcome rowsA k = firstOutcome rowsB k := by
  obtain ⟨rfl, -⟩ := h.rows_filter ne calm foundA foundB
  unfold firstOutcome
  rw [List.find?_filter]
  congr 2
  funext r
  by_cases own : r.key = k
  · simp [own, other]
  · simp [own]

lemma countP_of_ne (other : k ≠ t.key) (p : Outcome → Bool) :
    rowsA.countP (fun r => r.key = k && p r.outcome) =
      rowsB.countP fun r => r.key = k && p r.outcome := by
  obtain ⟨rfl, -⟩ := h.rows_filter ne calm foundA foundB
  rw [countP_filter]
  refine countP_congr fun r _ => ?_
  by_cases own : r.key = k
  · simp [own, other]
  · simp [own]

lemma settled_of_ne {x : Task} (other : x.key ≠ t.key) : x.settled rowsA = x.settled rowsB := by
  have first := h.firstOutcome_of_ne ne calm foundA foundB other
  have met := h.countP_of_ne ne calm foundA foundB other fun o => o = .met ∨ o = .failUpstream
  have same : upstreamMet rowsA x.key = upstreamMet rowsB x.key := by
    simpa only [upstreamMet, Bool.decide_and] using met
  rw [Task.settled, Task.settled, first, same]

lemma settled_self : t.settled rowsA =
    { t with pendingUpstreams := t.pendingUpstreams - upstreamMet rowsA t.key } := by
  obtain ⟨-, met⟩ := h.rows_filter ne calm foundA foundB
  have none : firstOutcome rowsA t.key = none := by
    rw [firstOutcome, map_eq_none_iff, List.find?_eq_none]
    intro r mem
    simpa using met r mem
  rw [Task.settled, none]
  rfl

end Propagate

section

variable (h : Alongside b a t added)
include h

lemma row_of_ne (hx : x ∈ a.tasks) (ne : x.key ≠ t.key) : ∃ y ∈ b.tasks, y.untimed = x.untimed := by
  have mem : x.untimed ∈ a.tasks.map Task.untimed := mem_map_of_mem hx
  rw [h.tasks, mem_append, mem_singleton] at mem
  rcases mem with old | new
  · exact mem_map.mp old
  · exact absurd (congrArg Task.key new) ne

lemma present (there : ∃ y ∈ b.tasks, y.key = k) : ∃ x ∈ a.tasks, x.key = k := by
  obtain ⟨y, hy, atKey⟩ := there
  have mem : y.untimed ∈ a.tasks.map Task.untimed := by
    rw [h.tasks]
    exact mem_append_left _ (mem_map_of_mem hy)
  obtain ⟨x, hx, same⟩ := mem_map.mp mem
  have key : x.untimed.key = y.untimed.key := congrArg Task.key same
  exact ⟨x, hx, Eq.trans key atKey⟩

lemma running_of_ne (ne : base ≠ t.key) (running : b.running base) : a.running base := by
  intro x hx atKey
  obtain ⟨y, hy, same⟩ := h.row_of_ne hx (atKey ▸ ne)
  have key : y.untimed.key = x.untimed.key := congrArg Task.key same
  have status : y.untimed.status = x.untimed.status := congrArg Task.status same
  change y.status = x.status at status
  rw [← status]
  exact running y hy (key.trans atKey)

lemma reports_of_ne (Sa : Sound a) (ne : base ≠ t.key) (R : Reports b base outcome) :
    Reports a base outcome :=
  ⟨Sa, h.running_of_ne ne R.running, h.present R.present, R.ran⟩

lemma propagate {na nb : Nat} (Sa : Sound a) (Sb : Sound b)
    (ne : base ≠ t.key) (running : b.running base) (calm : Calm b t added base outcome)
    (ha : a.propagate base outcome nowA = some (a', na))
    (hb : b.propagate base outcome nowB = some (b', nb)) :
    na = nb ∧ ∃ rowsA rowsB, a.downstreamUpdates base outcome = some rowsA ∧
      b.downstreamUpdates base outcome = some rowsB ∧
      Alongside b' a' (t.counted (upstreamMet rowsA t.key)) added := by
  obtain ⟨rowsA, foundA, tasksA, depsA, countA⟩ := resolved_eq Sa (h.running_of_ne ne running) ha
  obtain ⟨rowsB, foundB, tasksB, depsB, countB⟩ := resolved_eq Sb running hb
  have self := h.settled_self ne calm foundA foundB
  have others : ∀ x ∈ b.tasks.map Task.untimed, x.settled rowsA = x.settled rowsB := by
    refine forall_mem_map.mpr fun x hx => h.settled_of_ne ne calm foundA foundB ?_
    intro same
    have row := find_of_mem Sb.unique hx
    rw [show x.key = t.key from same, h.free] at row
    cases row
  refine ⟨?_, rowsA, rowsB, foundA, foundB, ?_, ?_, h.own, h.siblings, ?_, ?_⟩
  · have last : ([t].countP fun x => !x.status.terminal && (x.settled rowsA).status.terminal) = 0 := by
      rw [countP_eq_zero]
      intro x mem
      rw [mem_singleton.mp mem, self]
      cases t.status.terminal <;> simp
    rw [countA, countB, h.tasks, countP_append, last, Nat.add_zero]
    exact countP_congr fun x hx => by rw [others x hx]
  · rw [tasksA, h.tasks, map_append, map_singleton, self, tasksB,
      map_congr_left others]
    rfl
  · rw [depsA, depsB, h.deps]
  · have kept : b'.tasks.map (·.key) = b.tasks.map (·.key) := by
      have keys := congrArg (List.map Task.key) tasksB
      simpa [Function.comp_def, Task.untimed, Task.settled] using keys
    have free := h.free
    rw [find_eq_none_iff] at free ⊢
    rwa [kept]
  · rw [depsB]
    exact h.foreign

lemma map {F G H : Task → Task} (tasksA : a'.tasks = a.tasks.map F)
    (depsA : a'.deps = a.deps) (tasksB : b'.tasks = b.tasks.map G) (depsB : b'.deps = b.deps)
    (untimedA : ∀ x, (F x).untimed = H x.untimed) (untimedB : ∀ x, (G x).untimed = H x.untimed)
    (key : ∀ x, (G x).key = x.key) (same : H t = t) : Alongside b' a' t added := by
  have rows (s s' : Store) (f : Task → Task) (tasks : s'.tasks = s.tasks.map f)
      (untimed : ∀ x, (f x).untimed = H x.untimed) :
      s'.tasks.map Task.untimed = (s.tasks.map Task.untimed).map H := by
    rw [tasks, List.map_map, List.map_map]
    exact map_congr_left fun x _ => untimed x
  refine ⟨?_, ?_, h.own, h.siblings, ?_, ?_⟩
  · rw [rows a a' F tasksA untimedA, rows b b' G tasksB untimedB, h.tasks, map_append,
      map_singleton, same]
  · rw [depsA, depsB, h.deps]
  · have free := h.free
    rw [find_eq_none_iff] at free ⊢
    rw [tasksB, List.map_map]
    simpa only [Function.comp_def, key] using free
  · rw [depsB]
    exact h.foreign

lemma completeChildren (uniqueA : a.UniqueKeys) (uniqueB : b.UniqueKeys) (ne : parent ≠ t.key)
    (ha : a.completeChildren parent n = (a', nextA))
    (hb : b.completeChildren parent n = (b', nextB)) :
    Alongside b' a' t added ∧ ((nextA = none ∧ nextB = none) ∨
      nextA = some (a'.childrenOutcome parent) ∧ nextB = some (b'.childrenOutcome parent)) := by
  have same := h.find_of_ne ne
  rcases completeChildren_cases uniqueA ha with ⟨missA, rfl, rfl⟩ | ⟨rowA, foundA, RA, climbsA⟩
  · rcases completeChildren_cases uniqueB hb with ⟨missB, rfl, rfl⟩ | ⟨rowB, foundB, -⟩
    · exact ⟨h, .inl ⟨rfl, rfl⟩⟩
    · simp [missA, foundB] at same
  · rcases completeChildren_cases uniqueB hb with ⟨missB, -⟩ | ⟨rowB, foundB, RB, climbsB⟩
    · simp [missB, foundA] at same
    · rw [foundA, foundB, map_some, map_some, Option.some.injEq] at same
      have complete : (rowA.bump n).complete = (rowB.bump n).complete := by
        change (rowA.untimed.bump n).complete = (rowB.untimed.bump n).complete
        rw [same]
      have untimed (x : Task) : (if x.key = parent then x.bump n else x).untimed =
          if x.untimed.key = parent then x.untimed.bump n else x.untimed := by
        change _ = if x.key = parent then _ else _
        split <;> rfl
      refine ⟨h.map (H := fun x => if x.key = parent then x.bump n else x) RA.tasks RA.deps
        RB.tasks RB.deps untimed untimed RB.key (if_neg (Ne.symm ne)), ?_⟩
      rw [climbsA, climbsB, complete]
      split
      · exact .inr ⟨rfl, rfl⟩
      · exact .inl ⟨rfl, rfl⟩

lemma recordResult (ne : k ≠ t.key)
    (childless : t.key.parentId ≠ k.childrenId) (result : FinalResult) (nowA nowB : Time) :
    (a.children k).length = (b.children k).length ∧
      Alongside (b.recordResult k result nowB) (a.recordResult k result nowA) t added := by
  have length (s : Store) : (s.children k).length =
      (s.tasks.map Task.untimed).countP fun x => x.key.parentId = k.childrenId := by
    rw [children, ← countP_eq_length_filter, countP_map]
    rfl
  have same : (a.children k).length = (b.children k).length := by
    rw [length, length, h.tasks, countP_append]
    simp [childless]
  refine ⟨same, ?_⟩
  let H (x : Task) : Task :=
    if x.key = k then
      { x with
        totalChildren := some (b.children k).length
        status := if (b.children k).length > x.completedChildren then .runningSubtasks
          else x.status
        result := some result.payload }
    else x
  have untimed (s : Store) (now : Time) (count : (s.children k).length = (b.children k).length)
      (x : Task) : (s.recorded k result now x).untimed = H x.untimed := by
    change _ = if x.key = k then _ else _
    rw [recorded, count]
    split <;> rfl
  exact h.map (recordResult_rewritten result nowA).tasks rfl
    (recordResult_rewritten result nowB).tasks rfl (untimed a nowA same) (untimed b nowB rfl)
    (fun x => recorded_key result nowB x) (if_neg (Ne.symm ne))

lemma cancel (ne : k ≠ t.key) (nowA nowB : Time) : Alongside
      (b.update k fun x => if x.status = .leased then
        { x with status := .cancelled, finishTime := some nowB } else x)
      (a.update k fun x => if x.status = .leased then
        { x with status := .cancelled, finishTime := some nowA } else x) t added := by
  let H (x : Task) : Task :=
    if x.key = k then
      if x.status = .leased then { x with status := .cancelled, finishTime := none } else x
    else x
  have untimed (now : Time) (x : Task) :
      (if x.key = k then (if x.status = .leased then
        { x with status := .cancelled, finishTime := some now } else x) else x).untimed =
      H x.untimed := by
    change _ = if x.key = k then (if x.status = .leased then _ else _) else _
    split
    · split <;> rfl
    · rfl
  refine h.map rfl rfl rfl rfl (untimed nowA) (untimed nowB) ?_ (if_neg (Ne.symm ne))
  intro x
  dsimp only
  split
  · split <;> rfl
  · rfl

end

end Alongside

lemma childrenOutcome_eq (s : Store) (k : TaskKey) :
    s.childrenOutcome k = if (s.tasks.map Task.untimed).countP (fun x =>
      x.key.parentId = k.childrenId && x.status ≠ .completed) = 0 then .success else .fail := by
  rw [childrenOutcome, ← countP_eq_length_filter, children, countP_filter,
    countP_map]
  have same : s.tasks.countP (fun x => decide (x.status ≠ .completed) &&
      decide (x.key.parentId = k.childrenId)) = s.tasks.countP ((fun x : Task =>
        decide (x.key.parentId = k.childrenId) && decide (x.status ≠ .completed)) ∘
          Task.untimed) :=
    countP_congr fun x _ => by
      rw [Bool.and_comm]
      rfl
  rw [same]

namespace Alongside

section

variable (h : Alongside b a t added)
include h

lemma childrenOutcome_of_ne (ne : t.key.parentId ≠ parent.childrenId) :
    a.childrenOutcome parent = b.childrenOutcome parent := by
  rw [childrenOutcome_eq, childrenOutcome_eq, h.tasks, countP_append]
  simp [ne]

lemma childrenOutcome_of_parent
    (child : t.key.parentId = parent.childrenId) (incomplete : t.status ≠ .completed) :
    a.childrenOutcome parent = .fail := by
  rw [childrenOutcome_eq, h.tasks, countP_append, if_neg]
  simp [child, incomplete]

lemma pass (Sa : Sound a) (Sb : Sound b) (ne : base ≠ t.key)
    (level : base.parentId.length ≤ t.key.parentId.length) (running : b.running base)
    (calm : Calm b t added base outcome) (ha : a.pass base outcome nowA = some (a', nextA))
    (hb : b.pass base outcome nowB = some (b', nextB)) :
    ∃ rowsA rowsB, a.downstreamUpdates base outcome = some rowsA ∧
      b.downstreamUpdates base outcome = some rowsB ∧
      Alongside b' a' (t.counted (upstreamMet rowsA t.key)) added ∧
      ((nextA = none ∧ nextB = none) ∨ ∃ parent, parent.childrenId = base.parentId ∧
        nextA = some (a'.childrenOutcome parent) ∧ nextB = some (b'.childrenOutcome parent)) := by
  obtain ⟨⟨ma, na⟩, propA, turnA⟩ := map_eq_some_iff.mp ha
  obtain ⟨⟨mb, nb⟩, propB, turnB⟩ := map_eq_some_iff.mp hb
  obtain ⟨rfl, rowsA, rowsB, foundA, foundB, middle⟩ :=
    h.propagate Sa Sb ne running calm propA propB
  refine ⟨rowsA, rowsB, foundA, foundB, ?_⟩
  have uniqueA : ma.UniqueKeys := by
    obtain ⟨_, -, R, -⟩ := propagate_rewritten propA
    exact R.uniqueKeys Sa.unique
  have uniqueB : mb.UniqueKeys := by
    obtain ⟨_, -, R, -⟩ := propagate_rewritten propB
    exact R.uniqueKeys Sb.unique
  obtain ⟨parentId, taskId⟩ := base
  cases parentId with
  | nil =>
    cases turnA
    cases turnB
    exact ⟨middle, .inl ⟨rfl, rfl⟩⟩
  | cons p grand =>
    dsimp only at turnA turnB
    split at turnA
    · next root =>
      rw [if_pos root] at turnB
      cases turnA
      cases turnB
      exact ⟨middle, .inl ⟨rfl, rfl⟩⟩
    · next notRoot =>
      rw [if_neg notRoot] at turnB
      have other : (⟨grand, p⟩ : TaskKey) ≠ (t.counted (upstreamMet rowsA t.key)).key := by
        intro same
        have length : grand.length = t.key.parentId.length := congrArg (·.parentId.length) same
        rw [length_cons] at level
        omega
      obtain ⟨after, climbs⟩ := middle.completeChildren uniqueA uniqueB other turnA turnB
      exact ⟨after, climbs.imp_right fun both => ⟨⟨grand, p⟩, rfl, both⟩⟩

lemma pass_above (Sa : Sound a) (Sb : Sound b)
    (above : base.parentId.length < t.key.parentId.length) (running : b.running base)
    (ha : a.pass base outcome nowA = some (a', nextA))
    (hb : b.pass base outcome nowB = some (b', nextB)) :
    Alongside b' a' t added ∧ nextA = nextB := by
  have ne : base ≠ t.key := by
    rintro rfl
    omega
  have calm : Calm b t added base outcome := by
    intro _ d hd c o chained
    have level := chained.parentId Sb.siblings
    rw [h.siblings d hd] at level
    rw [level] at above
    omega
  obtain ⟨rowsA, rowsB, foundA, -, after, climbs⟩ := h.pass Sa Sb ne above.le running calm ha hb
  have none : upstreamMet rowsA t.key = 0 := by
    rw [upstreamMet, countP_eq_zero]
    intro r mem holds
    simp only [decide_eq_true_eq] at holds
    rcases row_cases foundA mem with rfl | ⟨d, dep, c, o, chained, -, rfl⟩
    · exact ne holds.1
    · have own : d.downstream = t.key := holds.1
      have level := chained.parentId Sa.siblings
      rw [Sa.siblings d dep, own] at level
      rw [level] at above
      omega
  have same : t.counted (upstreamMet rowsA t.key) = t := by
    rw [none, Task.counted]
    simp
  rw [same] at after
  refine ⟨after, ?_⟩
  rcases climbs with ⟨rfl, rfl⟩ | ⟨parent, up, rfl, rfl⟩
  · rfl
  · rw [after.childrenOutcome_of_ne]
    intro child
    rw [child, up] at above
    omega

lemma updateTaskStatus_above {clockA clockB : Nat → Time} (Sa : Sound a)
    (R : Reports b base outcome) (above : base.parentId.length < t.key.parentId.length)
    (ha : updateTaskStatus base.parentId a clockA base.taskId outcome = some a')
    (hb : updateTaskStatus base.parentId b clockB base.taskId outcome = some b') :
    Alongside b' a' t added := by
  -- the report in `a` goes along with the one in `b`
  refine updateTaskStatus_induction (Q := fun b' => Alongside b' a' t added) (P := fun b k o =>
    Reports b k o ∧ k.parentId.length < t.key.parentId.length ∧ ∃ a clock, Sound a ∧
      Alongside b a t added ∧ updateTaskStatus k.parentId a clock k.taskId o = some a')
    ?_ ⟨R, above, a, clockA, Sa, h, ha⟩ hb
  rintro b base outcome now b₁ next ⟨R, above, a, clock, Sa, h, ha⟩ passB
  have ne : base ≠ t.key := by
    rintro rfl
    exact above.false
  obtain ⟨a₁, next', passA, Sa', later⟩ := (h.reports_of_ne Sa ne R).turn ha
  obtain ⟨after, rfl⟩ := h.pass_above Sa R.sound above R.running passA passB
  rcases later with ⟨rfl, rfl⟩ | ⟨parent, o, rfl, up, -, rest⟩
  · exact ⟨fun _ => after, nofun⟩
  · refine ⟨nofun, fun o climbed => ?_⟩
    cases climbed
    obtain ⟨parent', up', R'⟩ := (Advances.pass R passB).2 o rfl
    obtain rfl : parent' = parent := childrenId_inj (up'.trans up.symm)
    rw [← up, TaskKey.childrenId, length_cons] at above
    exact ⟨parent', up, R', by omega, a₁, _, Sa', after, rest⟩

end

end Alongside

end Velda.TaskStore
