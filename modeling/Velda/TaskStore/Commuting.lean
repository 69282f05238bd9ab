import Velda.TaskStore.Reports

/-! A task that is created before or after one of its upstreams reports its result. The two
orders leave the same rows, up to times, unless the result makes the new task fail, reaches one
of its upstreams along two chains, or completes the parent. -/
namespace Velda.TaskStore
open Lib List Option Store

variable {s s' m a b : Store} {r : SessionRequest} {k base v : TaskKey} {row : Task}
  {result : FinalResult} {outcome o : Outcome} {rows : List UpdateRow} {t : Task}
  {added chain : List Dependency} {d : Dependency}

def Store.Same (s s' : Store) : Prop :=
  s.tasks.map Task.untimed = s'.tasks.map Task.untimed ∧ s.deps = s'.deps

instance (s s' : Store) : Decidable (s.Same s') := inferInstanceAs (Decidable (_ ∧ _))

def createThenReport (s : Store) (r : SessionRequest) (k : TaskKey) (result : FinalResult)
    (now : Time) (clock : Nat → Time) : Option Store :=
  (createTask s r now).bind fun created => updateTaskFinalResult created.1 k result clock

def reportThenCreate (s : Store) (r : SessionRequest) (k : TaskKey) (result : FinalResult)
    (now : Time) (clock : Nat → Time) : Option Store :=
  (updateTaskFinalResult s k result clock).bind fun reported =>
    (createTask reported r now).map (·.1)

/-- Whenever the two calls are made, both orders succeed and leave the same rows. -/
def Commute (s : Store) (r : SessionRequest) (k : TaskKey) (result : FinalResult) : Prop :=
  ∀ (now now' : Time) (clock clock' : Nat → Time), ∃ a b,
    createThenReport s r k result now clock = some a ∧
      reportThenCreate s r k result now' clock' = some b ∧ a.Same b

structure Dependent (s : Store) (r : SessionRequest) (k : TaskKey) (row : Task) : Prop where
  sound : Sound s
  owned : ∀ d ∈ s.deps, (s.find d.downstream).isSome
  nodup : s.deps.Nodup
  acyclic : Acyclic (s.deps ++ r.dependencyRows)
  free : s.find r.taskId = none
  found : s.find k = some row
  unended : row.status.terminal = false
  upstream : ∃ d ∈ r.dependencyRows, d.upstream = k

def Breaks (s : Store) (k : TaskKey) (outcome : Outcome) (d : Dependency) : Prop :=
  ∃ chain o, FailChain s k outcome chain d.upstream o ∧ edgeOutcome o d.trigger = .failUpstream

/-- What an outcome of `k` must not do to a request: make one of the dependencies fail that
`CreateTask` would look at, reach an upstream along two chains, complete the parent. -/
structure Undisturbed (s : Store) (r : SessionRequest) (k : TaskKey) (outcome : Outcome) :
    Prop where
  calm : ∀ d ∈ r.dependencyRows.takeWhile (fun d => !s.refuses d), ¬ Breaks s k outcome d
  single : r.dependencyRows.any s.refuses = false → ∀ d ∈ r.dependencyRows, ∀ c c' o o',
    FailChain s k outcome c d.upstream o → FailChain s k outcome c' d.upstream o' → c = c'
  waits : ¬ (outcome = .success ∧ LastChild s k)

def Finishes (s : Store) (k : TaskKey) (row : Task) (result : FinalResult) : Prop :=
  result.cancelled = false ∧ (s.children k).length ≤ row.completedChildren

section Requested

lemma length_takeWhile_eq_iff {α : Type} {p q : α → Bool} {l : List α}
    (le : ∀ x ∈ l, q x = true → p x = true) :
    (l.takeWhile q).length = (l.takeWhile p).length ↔ ∀ x ∈ l.takeWhile p, q x = true := by
  induction l with
  | nil => simp
  | cons x l ih =>
    cases hp : p x <;> cases hq : q x <;> simp_all

lemma length_linked (refused : requested.any s.refuses = true) :
    (s.linked requested).length = (requested.takeWhile fun d => !s.refuses d).length + 1 := by
  have before : requested.takeWhile (fun d => !s.refuses d) <+: requested :=
    takeWhile_prefix _
  have shorter : (requested.takeWhile fun d => !s.refuses d).length ≠ requested.length := by
    intro same
    obtain ⟨d, hd, refuses⟩ := any_eq_true.mp refused
    have accepted := takeWhile_eq_self_iff.mp (before.eq_of_length same) d hd
    rw [refuses] at accepted
    cases accepted
  have le := before.length_le
  rw [linked, length_take]
  omega

lemma key_of_request (hd : d ∈ r.dependencyRows) :
    d.downstream = r.taskId ∧ d.upstream.parentId = r.taskId.parentId := by
  obtain ⟨e, -, rfl⟩ := mem_map.mp hd
  exact ⟨rfl, rfl⟩

lemma Acyclic.ne {deps : List Dependency} (h : Acyclic deps) (hd : d ∈ deps) :
    d.upstream ≠ d.downstream := by
  obtain ⟨rank, ranked⟩ := h
  intro same
  have below := ranked d hd
  rw [same] at below
  exact below.false

namespace Dependent
variable (D : Dependent s r k row)
include D

lemma acyclic_store : Acyclic s.deps := by
  simpa using D.acyclic.of_isPrefix nil_prefix

lemma level : k.parentId = r.taskId.parentId := by
  obtain ⟨d, hd, rfl⟩ := D.upstream
  exact (key_of_request hd).2

lemma ne : k ≠ r.taskId := by
  obtain ⟨d, hd, rfl⟩ := D.upstream
  exact (key_of_request hd).1 ▸ D.acyclic.ne (mem_append_right _ hd)

lemma childless : r.taskId.parentId ≠ k.childrenId := by
  intro same
  have length := congrArg List.length same
  rw [TaskKey.childrenId, length_cons, D.level] at length
  omega

lemma alongside (tasks : a.tasks = s.tasks ++ [r.created s now])
    (deps : a.deps = s.deps ++ s.linked r.dependencyRows) :
    Alongside s a (r.created s 0).untimed (s.linked r.dependencyRows) where
  tasks := by
    rw [tasks, map_append]
    rfl
  deps := deps
  own d hd := (key_of_request ((linked_isPrefix s _).subset hd)).1
  siblings d hd := (key_of_request ((linked_isPrefix s _).subset hd)).2
  free := D.free
  foreign d hd same := by
    have owned := D.owned d hd
    rw [show d.downstream = r.taskId from same, D.free] at owned
    cases owned

end Dependent

lemma created_congr (now : Time) (refuses : ∀ d ∈ r.dependencyRows, m.refuses d = s.refuses d)
    (unfinished : ∀ d ∈ r.dependencyRows, m.unfinished d.upstream = s.unfinished d.upstream) :
    r.created m now = r.created s now ∧ m.linked r.dependencyRows = s.linked r.dependencyRows := by
  have any : r.dependencyRows.any m.refuses = r.dependencyRows.any s.refuses := by
    rw [Bool.eq_iff_iff, List.any_eq_true, List.any_eq_true]
    exact exists_congr fun d => and_congr_right fun hd => by rw [refuses d hd]
  have count : r.dependencyRows.countP (fun d => m.unfinished d.upstream) =
      r.dependencyRows.countP fun d => s.unfinished d.upstream :=
    countP_congr fun d hd => by rw [unfinished d hd]
  have looked : (r.dependencyRows.takeWhile fun d => !m.refuses d).length =
      (r.dependencyRows.takeWhile fun d => !s.refuses d).length := by
    refine (length_takeWhile_eq_iff fun d hd => by rw [refuses d hd]; exact id).mpr ?_
    intro d hd
    rw [refuses d (takeWhile_subset _ hd)]
    exact mem_takeWhile_imp (p := fun d => !s.refuses d) hd
  exact ⟨by rw [SessionRequest.created, SessionRequest.created, any, count],
    by rw [linked, linked, looked]⟩

lemma Alongside.same_iff (h : Alongside m a t added)
    (tasks : b.tasks = m.tasks ++ [r.created m now])
    (deps : b.deps = m.deps ++ m.linked r.dependencyRows) :
    a.Same b ↔ t = (r.created m 0).untimed ∧ added = m.linked r.dependencyRows := by
  rw [Store.Same, h.tasks, h.deps, tasks, deps, map_append, append_cancel_left_eq,
    append_cancel_left_eq, map_singleton, List.cons.injEq, and_iff_left rfl]
  rfl

end Requested

/-- A report in a store, and in the one that has a further task at the level of the report. -/
structure Reporting (s a m b : Store) (t : Task) (added : List Dependency) (k : TaskKey)
    (outcome : Outcome) (clock clock' : Nat → Time) : Prop extends Reports s k outcome where
  alongside : Alongside s a t added
  sound' : Sound a
  acyclic : Acyclic a.deps
  nodup : s.deps.Nodup
  level : t.key.parentId = k.parentId
  ne : k ≠ t.key
  first : updateTaskStatus k.parentId a clock k.taskId outcome = some b
  second : updateTaskStatus k.parentId s clock' k.taskId outcome = some m

namespace Reporting
variable {clock clock' : Nat → Time} (R : Reporting s a m b t added k outcome clock clock')
include R

lemma acyclic_store : Acyclic s.deps := by
  have acyclic := R.acyclic
  rw [R.alongside.deps] at acyclic
  simpa using acyclic.of_isPrefix nil_prefix

lemma reports' : Reports a k outcome := R.alongside.reports_of_ne R.sound' R.ne R.toReports

lemma ne_of_upstream (hd : d ∈ added) : d.upstream ≠ t.key :=
  R.alongside.own d hd ▸ R.acyclic.ne (R.alongside.deps ▸ mem_append_right _ hd)

lemma unfinished : s.unfinished k = true := by
  obtain ⟨u, hu, rfl⟩ := R.present
  have unended := R.running u hu rfl
  rw [unfinished, statusOf_of_mem R.sound.unique hu]
  rw [terminal_eq_not_open] at unended
  cases st : u.status <;> simp_all [Status.open, Status.finished]

lemma baseRow : ∃ row, s.find k = some row := by
  obtain ⟨u, hu, rfl⟩ := R.present
  exact ⟨u, find_of_mem R.sound.unique hu⟩

lemma statusOf_after (found : s.downstreamUpdates k outcome = some rows)
    (level : v.parentId = k.parentId) :
    m.statusOf v = (s.statusOf v).map fun st => Outcome.status st (firstOutcome rows v) := by
  obtain ⟨rows', found', settled⟩ := progress_report R.toReports R.second level
  obtain rfl : rows' = rows := Option.some.inj (found'.symm.trans found)
  have status := congrArg (Option.map Prod.fst) settled
  rw [Option.map_map, Option.map_map] at status
  rw [statusOf, statusOf, Option.map_map]
  refine Eq.trans status (map_congr fun x hx => ?_)
  change Outcome.status x.status (firstOutcome rows' x.key) = _
  rw [find_key hx]
  rfl

lemma refuses_iff (level : d.upstream.parentId = k.parentId) :
    m.refuses d = true ↔ s.refuses d = true ∨ Breaks s k outcome d := by
  obtain ⟨rows, found⟩ := isSome_iff_exists.mp
    (downstreamUpdates_isSome R.acyclic_store k outcome)
  have start := ne_met_of_ran R.ran
  have after := R.statusOf_after found level
  rcases firstOutcome_cases R.acyclic_store found start d.upstream with
    ⟨none, -, unreached⟩ | ⟨c, o, chained, some, ne⟩
  · have same : m.statusOf d.upstream = s.statusOf d.upstream := by
      rw [after, none]
      cases s.statusOf d.upstream <;> rfl
    rw [refuses, refuses, same]
    refine ⟨.inl, fun h => h.resolve_right ?_⟩
    rintro ⟨c, o, chained, -⟩
    exact unreached c o chained
  · obtain ⟨row, baseRow⟩ := R.baseRow
    obtain ⟨st, before⟩ := chained.statusOf baseRow
    have unfinished := chained.unfinished R.unfinished
    have accepted : s.refuses d = false := by
      rw [Store.unfinished, before] at unfinished
      rw [refuses, before]
      simp_all
    have breaks : Breaks s k outcome d ↔ ¬ edgeOutcome o d.trigger = .met := by
      obtain ⟨rank, ranked⟩ := R.acyclic_store
      constructor
      · rintro ⟨c', o', chained', fails⟩
        rw [← chained'.outcome_unique ranked chained, fails]
        intro met
        cases met
      · intro fails
        exact ⟨c, o, chained, (edgeOutcome_cases o d.trigger).resolve_right fails⟩
    rw [accepted, breaks, ← allows_iff_edgeOutcome st ne, refuses, after, before, some]
    simp [finished_of_outcome st ne]

lemma progress_self : ∃ rows, a.downstreamUpdates k outcome = some rows ∧
    (b.find t.key).map Task.progress = some (t.settled rows).progress := by
  obtain ⟨rows, found, settled⟩ := progress_report R.reports' R.first R.level
  refine ⟨rows, found, ?_⟩
  have own := R.alongside.find_self
  obtain ⟨x, hx, rfl⟩ := map_eq_some_iff.mp own
  rw [settled, show a.find x.untimed.key = some x from hx, map_some]
  rfl

lemma chain_alongside (h : FailChain s k outcome chain v o) :
    FailChain a k outcome chain v o := by
  refine h.mono ?_ ?_
  · rw [R.alongside.deps]
    exact subset_append_left _ _
  · intro d hd isOpen
    rwa [R.alongside.isOpen_of_ne (R.alongside.foreign d hd)]

lemma upstreamMet_pos (found : a.downstreamUpdates k outcome = some rows)
    (isOpen : t.status.open = true) (hd : d ∈ added) (breaks : Breaks s k outcome d) :
    0 < upstreamMet rows t.key := by
  obtain ⟨c, o, chained, fails⟩ := breaks
  have dep : d ∈ a.deps := by
    rw [R.alongside.deps]
    exact mem_append_right _ hd
  have own := R.alongside.own d hd
  have long := FailChain.link (R.chain_alongside chained) dep
    (by rw [own, R.alongside.isOpen_self, isOpen]) fails
  have row := row_of_chain (ne_met_of_ran R.ran) found long
  exact countP_pos_iff.mpr ⟨_, row, by simp [own]⟩

lemma upstreamMet_of_ended (found : a.downstreamUpdates k outcome = some rows)
    (ended : t.status.open = false) : upstreamMet rows t.key = 0 := by
  rw [upstreamMet, countP_eq_zero]
  intro u hu holds
  simp only [decide_eq_true_eq] at holds
  rcases row_cases found hu with rfl | ⟨d, -, c, o, -, isOpen, rfl⟩
  · exact R.ne holds.1
  · rw [show d.downstream = t.key from holds.1, R.alongside.isOpen_self, ended] at isOpen
    cases isOpen

lemma upstreamMet_eq (isOpen : t.status.open = true) (calm : Alongside.Calm s t added k outcome)
    (found : a.downstreamUpdates k outcome = some rows)
    (found' : s.downstreamUpdates k outcome = some rows') :
    upstreamMet rows t.key = (added.map fun d => failCount rows' d.upstream).sum := by
  rw [upstreamMet_eq_countP_key found (Ne.symm R.ne),
    countP_key found (Ne.symm R.ne) (by rw [R.alongside.isOpen_self, isOpen]),
    R.alongside.dependenciesOf_self]
  congr 1
  refine map_congr_left fun d hd => ?_
  have same := R.alongside.countP_of_ne R.ne calm found found' (R.ne_of_upstream hd)
    fun o => o ≠ .met
  simpa only [failCount, Bool.decide_and] using same

lemma count_iff {requested : List Dependency} (found : s.downstreamUpdates k outcome = some rows)
    (level : ∀ d ∈ requested, d.upstream.parentId = k.parentId) :
    ((requested.countP fun d => s.unfinished d.upstream : Nat) : Int) -
        ((requested.map fun d => failCount rows d.upstream).sum : Nat) =
      (requested.countP fun d => m.unfinished d.upstream : Nat) ↔
    ∀ d ∈ requested, ∀ c c' o o', FailChain s k outcome c d.upstream o →
      FailChain s k outcome c' d.upstream o' → c = c' := by
  have start := ne_met_of_ran R.ran
  obtain ⟨row, baseRow⟩ := R.baseRow
  have total : (requested.countP fun d => m.unfinished d.upstream) +
      (requested.map fun d => min (failCount rows d.upstream) 1).sum =
        requested.countP fun d => s.unfinished d.upstream :=
    countP_add_sum fun d hd => unfinished_after R.acyclic_store found start baseRow R.unfinished
      (R.statusOf_after found (level d hd))
  have single := sum_min_one_eq_iff (l := requested) (f := fun d => failCount rows d.upstream)
  have small : (∀ d ∈ requested, failCount rows d.upstream ≤ 1) ↔
      ∀ d ∈ requested, ∀ c c' o o', FailChain s k outcome c d.upstream o →
        FailChain s k outcome c' d.upstream o' → c = c' := by
    obtain ⟨rank, ranked⟩ := R.acyclic_store
    refine forall₂_congr fun d hd => ⟨fun le c c' o o' h h' => ?_, fun same => ?_⟩
    · exact h.unique_of_failCount ranked start found h' le
    · exact failCount_le_one ranked R.nodup start found same
  rw [← small, ← single]
  omega

/-- Either the report does the same in both stores, or it completes the parent in the one and
fails it in the other. -/
lemma alongside_or_parent (calm : Alongside.Calm s t added k outcome)
    (incomplete : t.status ≠ .completed) : ∃ rows, a.downstreamUpdates k outcome = some rows ∧
      ((¬ (outcome = .success ∧ LastChild s k) ∧
          Alongside m b (t.counted (upstreamMet rows t.key)) added) ∨
        (outcome = .success ∧ LastChild s k) ∧
          ∃ parent, parent ≠ t.key ∧ b.statusOf parent ≠ m.statusOf parent) := by
  obtain ⟨xa, nextA, passA, Sa, afterA⟩ := R.reports'.turn R.first
  obtain ⟨xs, nextS, passS, Ss, afterS⟩ := R.turn R.second
  obtain ⟨rows, -, found, -, middle, climbs⟩ := R.alongside.pass R.sound' R.sound R.ne
    (by rw [R.level]) R.running calm passA passS
  refine ⟨rows, found, ?_⟩
  have success := next_success_iff R.toReports passS
  rcases climbs with ⟨rfl, rfl⟩ | ⟨parent, up, rfl, rfl⟩
  · rcases afterA with ⟨-, rfl⟩ | ⟨_, _, climbed, -⟩
    · rcases afterS with ⟨-, rfl⟩ | ⟨_, _, climbed, -⟩
      · exact .inl ⟨fun both => (by cases success.mpr both), middle⟩
      · cases climbed
    · cases climbed
  · have child : t.key.parentId = parent.childrenId := R.level.trans up.symm
    have shorter : parent.parentId.length < t.key.parentId.length := by
      rw [child, TaskKey.childrenId, length_cons]
      omega
    rw [middle.childrenOutcome_of_parent child incomplete] at afterA
    rcases afterA with ⟨climbed, -⟩ | ⟨pa, oa, climbed, upA, RA, restA⟩
    · cases climbed
    obtain rfl := Option.some.inj climbed
    obtain rfl : pa = parent := childrenId_inj (upA.trans up.symm)
    rcases afterS with ⟨climbed', -⟩ | ⟨ps, os, climbed', upS, RS, restS⟩
    · cases climbed'
    obtain rfl : ps = pa := childrenId_inj (upS.trans up.symm)
    rw [climbed'] at success
    cases os with
    | success =>
      refine .inr ⟨success.mp rfl, ps, ?_, ?_⟩
      · rintro rfl
        exact shorter.false
      · obtain ⟨_, failed⟩ := statusOf_base RA restA
        obtain ⟨_, completed⟩ := statusOf_base RS restS
        rw [failed, completed]
        intro same
        cases same
    | fail =>
      refine .inl ⟨fun both => (by cases success.mpr both), ?_⟩
      exact middle.updateTaskStatus_above Sa RS shorter restA restS
    | failUpstream => cases RS.ran
    | met => cases RS.ran

end Reporting

lemma Store.Same.find_untimed (h : s.Same s') (k : TaskKey) :
    (s.find k).map Task.untimed = (s'.find k).map Task.untimed := by
  rw [← TaskStore.find_untimed, ← TaskStore.find_untimed, h.1]

lemma Store.Same.statusOf (h : s.Same s') (k : TaskKey) : s.statusOf k = s'.statusOf k := by
  rw [statusOf_eq, statusOf_eq, h.find_untimed]

lemma created_status (s : Store) (r : SessionRequest) (now : Time) :
    (r.created s now).status.open = !r.dependencyRows.any s.refuses ∧
      (r.created s now).status ≠ .completed := by
  unfold SessionRequest.created SessionRequest.row
  cases r.dependencyRows.any s.refuses <;> exact ⟨rfl, nofun⟩

lemma calm_of_request (calm : ∀ d ∈ r.dependencyRows.takeWhile (fun d => !s.refuses d),
    ¬ Breaks s k outcome d) :
    Alongside.Calm s (r.created s 0).untimed (s.linked r.dependencyRows) k outcome := by
  intro isOpen d hd c o chained
  have accepted : r.dependencyRows.any s.refuses = false := by
    have status := (created_status s r 0).1
    rw [show (r.created s 0).status.open = true from isOpen] at status
    simpa using status.symm
  have all : r.dependencyRows.takeWhile (fun d => !s.refuses d) = r.dependencyRows := by
    rw [takeWhile_eq_self_iff]
    intro d hd
    simpa using any_eq_false.mp accepted d hd
  rw [linked_of_accepted accepted] at hd
  refine (edgeOutcome_cases o d.trigger).resolve_left fun fails => ?_
  exact calm d (all.symm ▸ hd) ⟨c, o, chained, fails⟩

lemma counted_eq_iff (any : r.dependencyRows.any m.refuses = r.dependencyRows.any s.refuses) :
    (r.created s 0).untimed.counted n = (r.created m 0).untimed ↔
      (r.created s 0).untimed.pendingUpstreams - n = (r.created m 0).untimed.pendingUpstreams := by
  refine ⟨congrArg Task.pendingUpstreams, fun same => ?_⟩
  rw [Task.counted, same]
  simp only [SessionRequest.created, SessionRequest.row, Task.untimed, any]

namespace Reporting
variable {c : Store} {now : Time} {clock clock' : Nat → Time}
  (R : Reporting s c m a (r.created s 0).untimed (s.linked r.dependencyRows) k outcome clock clock')
  (tasks : b.tasks = m.tasks ++ [r.created m now])
  (deps : b.deps = m.deps ++ m.linked r.dependencyRows)
include R

lemma level_of_request (hd : d ∈ r.dependencyRows) : d.upstream.parentId = k.parentId :=
  (key_of_request hd).2.trans R.level

lemma refuses_mono (hd : d ∈ r.dependencyRows) :
    (!m.refuses d) = true → (!s.refuses d) = true := by
  rw [Bool.not_eq_true', Bool.not_eq_true', Bool.eq_false_iff, Bool.eq_false_iff]
  exact fun accepted refused => accepted ((R.refuses_iff (R.level_of_request hd)).mpr (.inl refused))

lemma looked_iff : (r.dependencyRows.takeWhile fun d => !m.refuses d).length =
      (r.dependencyRows.takeWhile fun d => !s.refuses d).length ↔
    ∀ d ∈ r.dependencyRows.takeWhile (fun d => !s.refuses d), ¬ Breaks s k outcome d := by
  rw [length_takeWhile_eq_iff fun d => R.refuses_mono]
  refine forall₂_congr fun d hd => ?_
  have accepted := mem_takeWhile_imp hd
  rw [Bool.not_eq_true'] at accepted
  rw [Bool.not_eq_true', Bool.eq_false_iff, not_iff_not,
    R.refuses_iff (R.level_of_request (takeWhile_subset _ hd)), accepted]
  simp

lemma rewritten : ∃ F, Rewritten s m F := by
  obtain ⟨F, advances, -⟩ := Advances.updateTaskStatus R.toReports R.second
  exact ⟨F, advances.toRewritten⟩

lemma deps_eq : a.deps = s.deps ++ s.linked r.dependencyRows := by
  obtain ⟨F, advances, -⟩ := Advances.updateTaskStatus R.reports' R.first
  rw [advances.deps, R.alongside.deps]

include tasks in
lemma find_created : b.find r.taskId = some (r.created m now) := by
  obtain ⟨F, rewritten⟩ := R.rewritten
  have free : m.find r.taskId = none := by
    have free : s.find r.taskId = none := R.alongside.free
    rw [rewritten.find, free, map_none]
  have own : (r.created m now).key = r.taskId := rfl
  rw [find] at free
  rw [find, tasks, List.find?_append, free, none_or, List.find?_cons_of_pos]
  simp [own]

include tasks deps in
lemma not_same_of_breaks
    (hd : d ∈ r.dependencyRows.takeWhile fun d => !s.refuses d) (breaks : Breaks s k outcome d) :
    ¬ a.Same b := by
  intro same
  have mem := takeWhile_subset _ hd
  have refused : r.dependencyRows.any m.refuses = true :=
    any_eq_true.mpr ⟨d, mem, (R.refuses_iff (R.level_of_request mem)).mpr (.inr breaks)⟩
  cases accepted : r.dependencyRows.any s.refuses with
  | false =>
    obtain ⟨rows, found, self⟩ := R.progress_self
    have isOpen := (created_status s r 0).1
    rw [accepted] at isOpen
    have positive := R.upstreamMet_pos found isOpen
      ((linked_of_accepted accepted).symm ▸ mem) breaks
    have own := congrArg (Option.map Task.progress) (same.find_untimed r.taskId)
    rw [R.find_created tasks, Option.map_map] at own
    have pending := congrArg (Option.map Prod.snd) (self.symm.trans own)
    have counted : (r.created s 0).pendingUpstreams - upstreamMet rows r.taskId =
        (r.created m now).pendingUpstreams := Option.some.inj pending
    rw [SessionRequest.created, SessionRequest.created, accepted, refused] at counted
    have length : r.dependencyRows.length = r.dependencies.length := List.length_map _
    have bound := r.dependencyRows.countP_le_length (p := fun d => s.unfinished d.upstream)
    simp only [SessionRequest.row, if_true] at counted
    change 0 < upstreamMet rows r.taskId at positive
    omega
  | true =>
    have shorter := mt R.looked_iff.mp (fun calm => calm d hd breaks)
    obtain ⟨F, rewritten⟩ := R.rewritten
    have linked := same.2
    rw [R.deps_eq, deps, rewritten.deps, List.append_cancel_left_eq] at linked
    have length := congrArg List.length linked
    rw [length_linked accepted, length_linked refused] at length
    omega

lemma looked_of_calm (calm : ∀ d ∈ r.dependencyRows.takeWhile (fun d => !s.refuses d),
    ¬ Breaks s k outcome d) : m.linked r.dependencyRows = s.linked r.dependencyRows ∧
      r.dependencyRows.any m.refuses = r.dependencyRows.any s.refuses := by
  have looked := R.looked_iff.mpr calm
  refine ⟨by rw [linked, linked, looked], ?_⟩
  rw [Bool.eq_iff_iff, List.any_eq_true, List.any_eq_true]
  constructor
  · rintro ⟨d, hd, refuses⟩
    by_contra accepted
    have all : r.dependencyRows.takeWhile (fun d => !s.refuses d) = r.dependencyRows := by
      refine takeWhile_eq_self_iff.mpr fun e he => ?_
      cases refused : s.refuses e with
      | false => rfl
      | true => exact absurd ⟨e, he, refused⟩ accepted
    rcases (R.refuses_iff (R.level_of_request hd)).mp refuses with refused | breaks
    · exact accepted ⟨d, hd, refused⟩
    · exact calm d (all.symm ▸ hd) breaks
  · rintro ⟨d, hd, refused⟩
    exact ⟨d, hd, (R.refuses_iff (R.level_of_request hd)).mpr (.inl refused)⟩

include tasks deps in
lemma same_iff : a.Same b ↔ Undisturbed s r k outcome := by
  by_cases calm : ∀ d ∈ r.dependencyRows.takeWhile (fun d => !s.refuses d), ¬ Breaks s k outcome d
  swap
  · refine iff_of_false ?_ fun U => calm U.calm
    simp only [not_forall, not_not] at calm
    obtain ⟨d, hd, breaks⟩ := calm
    exact R.not_same_of_breaks tasks deps hd breaks
  obtain ⟨linked, any⟩ := R.looked_of_calm calm
  have quiet := calm_of_request calm
  obtain ⟨rows, found, ⟨waits, after⟩ | ⟨ends, parent, other, differs⟩⟩ :=
    R.alongside_or_parent quiet (created_status s r 0).2
  · rw [after.same_iff tasks deps, linked, and_iff_left rfl, counted_eq_iff any]
    change (r.created s 0).pendingUpstreams - (upstreamMet rows r.taskId : Nat) =
      (r.created m 0).pendingUpstreams ↔ _
    have isOpen := (created_status s r 0).1
    simp only [SessionRequest.created, SessionRequest.row, any]
    cases accepted : r.dependencyRows.any s.refuses with
    | true =>
      rw [accepted] at isOpen
      have none : upstreamMet rows r.taskId = 0 := R.upstreamMet_of_ended found isOpen
      refine iff_of_true (by rw [none]; simp) ⟨calm, fun accepts => ?_, waits⟩
      rw [accepted] at accepts
      cases accepts
    | false =>
      rw [accepted] at isOpen
      obtain ⟨rows', found'⟩ := isSome_iff_exists.mp
        (downstreamUpdates_isSome R.acyclic_store k outcome)
      have count : upstreamMet rows r.taskId =
          ((s.linked r.dependencyRows).map fun d => failCount rows' d.upstream).sum :=
        R.upstreamMet_eq isOpen quiet found found'
      rw [linked_of_accepted accepted] at count
      simp only [Bool.false_eq_true, if_false]
      rw [count, R.count_iff found' fun d => R.level_of_request]
      exact ⟨fun single => ⟨calm, fun _ => single, waits⟩, fun U => U.single accepted⟩
  · refine iff_of_false (fun same => differs ?_) fun U => U.waits ends
    have own : (r.created m now).key ≠ parent := Ne.symm other
    rw [same.statusOf, statusOf, statusOf, find, tasks, List.find?_append]
    simp [own, find]

end Reporting

structure Orders (s : Store) (r : SessionRequest) (k : TaskKey) (result : FinalResult)
    (c a m b : Store) (now now' : Time) (clock clock' : Nat → Time) : Prop where
  tasks : c.tasks = s.tasks ++ [r.created s now]
  deps : c.deps = s.deps ++ s.linked r.dependencyRows
  sound : Sound c
  first : updateTaskFinalResult c k result clock = some a
  second : updateTaskFinalResult s k result clock' = some m
  tasks' : b.tasks = m.tasks ++ [r.created m now']
  deps' : b.deps = m.deps ++ m.linked r.dependencyRows

lemma createTask_store (now : Time) (free : s.find r.taskId = none) :
    ∃ c count, createTask s r now = some (c, r.taskId, count) ∧
      c.tasks = s.tasks ++ [r.created s now] ∧ c.deps = s.deps ++ s.linked r.dependencyRows :=
  ⟨_, _, createTask_eq now free, rfl, rfl⟩

lemma Dependent.orders (D : Dependent s r k row) (result : FinalResult) (now now' : Time)
    (clock clock' : Nat → Time) : ∃ c a m b, Orders s r k result c a m b now now' clock clock' ∧
      createThenReport s r k result now clock = some a ∧
      reportThenCreate s r k result now' clock' = some b := by
  obtain ⟨c, _, created, tasks, deps⟩ := createTask_store now D.free
  have acyclic : Acyclic c.deps := deps ▸ D.acyclic.of_isPrefix (linked_isPrefix s _)
  obtain ⟨a, first⟩ := isSome_iff_exists.mp (updateTaskFinalResult_isSome acyclic result
    clock (by rw [find_createTask created D.found]; rfl))
  obtain ⟨m, second⟩ := isSome_iff_exists.mp
    (updateTaskFinalResult_isSome D.acyclic_store result clock' (by rw [D.found]; rfl))
  have free : m.find r.taskId = none := by
    obtain ⟨F, advances, -⟩ := Advances.updateTaskFinalResult D.sound
      (fun _ => by simpa [D.found] using D.unended) second
    rw [advances.find, D.free, map_none]
  obtain ⟨b, _, created', tasks', deps'⟩ := createTask_store now' free
  refine ⟨c, a, m, b, ⟨tasks, deps, .createTask D.sound created, first, second, tasks', deps'⟩,
    ?_, ?_⟩
  · rw [createThenReport, created, bind_some, first]
  · rw [reportThenCreate, second, bind_some, created', map_some]

section Recorded
variable (unique : s.UniqueKeys) (found : s.find k = some row)
  (finishes : (s.children k).length ≤ row.completedChildren) (result : FinalResult) (now : Time)
include unique found finishes

lemma recorded_status (ht : t ∈ s.tasks) : (s.recorded k result now t).status = t.status := by
  unfold recorded
  split
  · next atKey =>
    rw [eq_of_find unique found ht atKey]
    exact if_neg (Nat.not_lt.mpr finishes)
  · rfl

lemma statusOf_recordResult : (s.recordResult k result now).statusOf v = s.statusOf v := by
  rw [statusOf, (recordResult_rewritten result now).find, Option.map_map, statusOf]
  exact map_congr fun t ht => recorded_status unique found finishes result now (find_mem ht)

lemma chain_recordResult : FailChain (s.recordResult k result now) base outcome chain v o ↔
    FailChain s base outcome chain v o := by
  have isOpen (v : TaskKey) : (s.recordResult k result now).isOpen v = s.isOpen v := by
    rw [isOpen, isOpen, statusOf_recordResult unique found finishes]
  exact ⟨FailChain.mono (List.Subset.refl _) fun d _ opened => (isOpen _).symm.trans opened,
    FailChain.mono (List.Subset.refl _) fun d _ opened => (isOpen _).trans opened⟩

omit unique found finishes in
lemma lastChild_recordResult : LastChild (s.recordResult k result now) k ↔ LastChild s k := by
  have R := recordResult_rewritten (s := s) (k := k) result now
  have other {t : Task} (ne : t.key ≠ k) : s.recorded k result now t = t := if_neg ne
  have up {p : Task} (parent : p.key.childrenId = k.parentId) : p.key ≠ k := by
    rintro rfl
    exact absurd (congrArg List.length parent) (by simp [TaskKey.childrenId])
  have siblings (q : TaskKey) :
      (∀ c ∈ (s.recordResult k result now).children q, c.key ≠ k → c.status = .completed) ↔
        ∀ c ∈ s.children q, c.key ≠ k → c.status = .completed := by
    rw [R.children, List.forall_mem_map]
    refine forall₂_congr fun c _ => ?_
    rw [recorded_key]
    exact imp_congr_right fun ne => by rw [other ne]
  refine and_congr_right fun _ => ?_
  rw [R.tasks]
  constructor
  · rintro ⟨_, mem, parent, complete, completed⟩
    obtain ⟨p, hp, rfl⟩ := mem_map.mp mem
    rw [recorded_key] at parent
    rw [other (up parent)] at complete completed
    exact ⟨p, hp, parent, complete, (siblings _).mp completed⟩
  · rintro ⟨p, hp, parent, complete, completed⟩
    refine ⟨p, ?_, parent, complete, (siblings _).mpr completed⟩
    rw [← other (up parent)]
    exact mem_map_of_mem hp

end Recorded

lemma Undisturbed.congr (U : Undisturbed s r k outcome)
    (refuses : ∀ d, s'.refuses d = s.refuses d)
    (chains : ∀ c v o, FailChain s' k outcome c v o → FailChain s k outcome c v o)
    (last : LastChild s' k → LastChild s k) : Undisturbed s' r k outcome where
  calm d hd := by
    rintro ⟨c, o, chained, fails⟩
    simp only [refuses] at hd
    exact U.calm d hd ⟨c, o, chains _ _ _ chained, fails⟩
  single accepted d hd c c' o o' h h' := by
    refine U.single ?_ d hd c c' o o' (chains _ _ _ h) (chains _ _ _ h')
    rwa [show s'.refuses = s.refuses from funext refuses] at accepted
  waits both := U.waits ⟨both.1, last both.2⟩

lemma Alongside.same_of_unfinished
    (h : Alongside m a (r.created s 0).untimed (s.linked r.dependencyRows))
    (others : ∀ v, v ≠ k → m.statusOf v = s.statusOf v) (unfinished : s.unfinished k = true)
    (unfinished' : m.unfinished k = true) (tasks : b.tasks = m.tasks ++ [r.created m now])
    (deps : b.deps = m.deps ++ m.linked r.dependencyRows) : a.Same b := by
  have accepts (x : Store) (d : Dependency) (running : x.unfinished d.upstream = true) :
      x.refuses d = false := by
    unfold Store.unfinished at running
    unfold refuses
    cases found : x.statusOf d.upstream <;> simp_all
  have refuses : ∀ d ∈ r.dependencyRows, m.refuses d = s.refuses d := by
    intro d _
    by_cases own : d.upstream = k
    · rw [accepts m d (own ▸ unfinished'), accepts s d (own ▸ unfinished)]
    · rw [refuses, refuses, others _ own]
  have still : ∀ d ∈ r.dependencyRows, m.unfinished d.upstream = s.unfinished d.upstream := by
    intro d _
    by_cases own : d.upstream = k
    · rw [own, unfinished, unfinished']
    · rw [Store.unfinished, Store.unfinished, others _ own]
  obtain ⟨created, linked⟩ := created_congr 0 refuses still
  exact (h.same_iff tasks deps).mpr ⟨by rw [created], linked.symm⟩

lemma update_unfinished {f : Task → Task} (keeps : ∀ t, (f t).key = t.key)
    (found : s.find k = some row) (unfinished : (f row).status.finished = false) :
    (∀ v, v ≠ k → (s.update k f).statusOf v = s.statusOf v) ∧
      (s.update k f).unfinished k = true := by
  constructor
  · intro v ne
    have moved := find_map (s := s) (fun t => if t.key = k then f t else t)
      (fun t => by split <;> [exact keeps t; rfl]) v
    rw [statusOf, update, moved, Option.map_map, statusOf]
    refine map_congr fun t ht => ?_
    rw [Function.comp_apply, if_neg (by rwa [find_key ht])]
  · rw [Store.unfinished, Store.statusOf, find_update keeps found]
    simp [unfinished]

section Orders
variable {c : Store} {now now' : Time} {clock clock' : Nat → Time}
  (D : Dependent s r k row) (O : Orders s r k result c a m b now now' clock clock')
include D O

lemma Orders.found : c.find k = some row := by
  rw [find, O.tasks, List.find?_append]
  change (s.find k).or _ = _
  rw [D.found, some_or]

omit O in
lemma Dependent.unfinished : s.unfinished k = true := by
  have unended := D.unended
  rw [Store.unfinished, Store.statusOf, D.found, map_some]
  cases st : row.status <;> simp_all [Status.terminal, Status.finished]

lemma Orders.same_of_unfinished (waits : ¬ Finishes s k row result) : a.Same b := by
  have before := D.alongside O.tasks O.deps
  have first := O.first
  have second := O.second
  unfold updateTaskFinalResult at first second
  by_cases cancelled : result.cancelled = true
  · rw [if_pos cancelled, Option.some.injEq] at first second
    have status : (if row.status = .leased then
        { row with status := .cancelled, finishTime := some (clock' 0) } else row).status.finished =
          false := by
      have unended := D.unended
      split
      · rfl
      · cases st : row.status <;> simp_all [Status.terminal, Status.finished]
    obtain ⟨others, unfinished⟩ := update_unfinished (f := fun t => if t.status = .leased then
      { t with status := .cancelled, finishTime := some (clock' 0) } else t)
      (fun t => by split <;> rfl) D.found status
    rw [second] at others unfinished
    have after := before.cancel D.ne (clock 0) (clock' 0)
    rw [first, second] at after
    exact after.same_of_unfinished others D.unfinished unfinished O.tasks' O.deps'
  · obtain ⟨length, recorded⟩ := before.recordResult D.ne D.childless result (clock 0) (clock' 0)
    have children : (s.children k).length > row.completedChildren := by
      by_contra all
      exact waits ⟨Bool.eq_false_iff.mpr cancelled, Nat.not_lt.mp all⟩
    simp only [if_neg cancelled, O.found D, D.found, length, if_pos children,
      Option.some.injEq] at first second
    obtain ⟨others, unfinished⟩ := update_unfinished (f := fun t =>
      { t with
        totalChildren := some (s.children k).length
        status := if (s.children k).length > t.completedChildren then .runningSubtasks
          else t.status
        startTime := some result.startTime
        finishTime := some (clock' 0)
        result := some result.payload }) (fun _ => rfl) D.found (by simp [children, Status.finished])
    have after : Alongside m a (r.created s 0).untimed (s.linked r.dependencyRows) := by
      rw [← first, ← second]
      exact ⟨recorded.tasks, recorded.deps, recorded.own, recorded.siblings, recorded.free,
        recorded.foreign⟩
    subst second
    exact after.same_of_unfinished others D.unfinished unfinished O.tasks' O.deps'

lemma Orders.reporting (finishes : Finishes s k row result) :
    Reporting (s.recordResult k result (clock' 0)) (c.recordResult k result (clock 0)) m a
      (r.created (s.recordResult k result (clock' 0)) 0).untimed
      ((s.recordResult k result (clock' 0)).linked r.dependencyRows) k result.payload.outcome
      (fun i => clock (i + 1)) fun i => clock' (i + 1) := by
  have before := D.alongside O.tasks O.deps
  obtain ⟨length, recorded⟩ := before.recordResult D.ne D.childless result (clock 0) (clock' 0)
  have status (v : TaskKey) := statusOf_recordResult (v := v) D.sound.unique D.found finishes.2
  obtain ⟨created, linked⟩ := created_congr (s := s)
    (m := s.recordResult k result (clock' 0)) 0
    (fun d _ => by rw [refuses, refuses, status])
    fun d _ => by rw [unfinished, unfinished, status]
  obtain ⟨advances, -, reports⟩ :=
    Advances.recordResult D.sound result (clock' 0) D.found D.unended
  obtain ⟨advances', -⟩ :=
    Advances.recordResult O.sound result (clock 0) (O.found D) D.unended
  have first := O.first
  have second := O.second
  unfold updateTaskFinalResult at first second
  have children : ¬ (s.children k).length > row.completedChildren := Nat.not_lt.mpr finishes.2
  simp only [finishes.1, O.found D, D.found, length,
    if_neg children] at first second
  rw [created, linked]
  refine ⟨reports, recorded, advances'.sound O.sound, ?_, ?_, D.level.symm, D.ne, first, second⟩
  · rw [advances'.deps, O.deps]
    exact D.acyclic.of_isPrefix (linked_isPrefix s _)
  · exact D.nodup

lemma Orders.same_iff :
    a.Same b ↔ (Finishes s k row result → Undisturbed s r k result.payload.outcome) := by
  by_cases finishes : Finishes s k row result
  · have chains (c : List Dependency) (v : TaskKey) (o : Outcome) :
        FailChain (s.recordResult k result (clock' 0)) k result.payload.outcome c v o ↔
          FailChain s k result.payload.outcome c v o :=
      chain_recordResult D.sound.unique D.found finishes.2 result (clock' 0)
    have refuses (d : Dependency) : (s.recordResult k result (clock' 0)).refuses d = s.refuses d := by
      rw [refuses, refuses,
        statusOf_recordResult D.sound.unique D.found finishes.2 result (clock' 0)]
    have last := lastChild_recordResult (s := s) (k := k) result (clock' 0)
    rw [(O.reporting D finishes).same_iff O.tasks' O.deps', forall_prop_of_true finishes]
    exact ⟨fun U => U.congr (fun d => (refuses d).symm) (fun c v o => (chains c v o).mpr) last.mpr,
      fun U => U.congr refuses (fun c v o => (chains c v o).mp) last.mp⟩
  · exact iff_of_true (O.same_of_unfinished D finishes) fun done => absurd done finishes

end Orders

def leasedTask (name : Name) : Task :=
  { ({ taskId := ⟨[], name⟩, dependencies := [] } : SessionRequest).row name .leased 0 1 with
    leaseBy := some "broker" }

def dependentOn (name upstream : Name) : SessionRequest :=
  { taskId := ⟨[], name⟩, dependencies := [(upstream, .success)] }

structure Counts where
  taskId : Name
  status : Status
  pendingUpstreams : Int
  completedChildren : Nat
  deriving DecidableEq

def Task.counts (t : Task) : Counts :=
  ⟨t.key.taskId, t.status, t.pendingUpstreams, t.completedChildren⟩

def Store.counts (s : Store) : List Counts := s.tasks.map Task.counts

lemma Store.Same.counts (h : s.Same s') : s.counts = s'.counts := by
  have rows := congrArg (List.map Task.counts) h.1
  rwa [List.map_map, List.map_map] at rows

def fails : FinalResult := { payload := ⟨some 1, 0⟩ }

def subtaskOn : SessionRequest :=
  { taskId := ⟨["p"], "b"⟩, dependencies := [("a", .success)] }

end Velda.TaskStore
