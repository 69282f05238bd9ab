import Velda.TaskStore.Subtasks

/-! The final status of a task with subtasks. A task that reports after its last child
ends with its own outcome; one that reports before it ends with the outcome its
children give it, success when all of them completed. Where the two agree the order
of the reports does not matter. -/
namespace Velda.TaskStore
open Lib List Option Store

variable {s s' : Store} {k base : TaskKey} {outcome : Outcome} {rows : List UpdateRow}
  {settling settling' : Option TaskKey}

def Outcome.ends (outcome : Outcome) : Status := Outcome.status .leased (some outcome)

lemma status_eq_ends (status : Status) (start : outcome ≠ .met) :
    Outcome.status status (some outcome) = outcome.ends := by
  cases outcome with
  | met => exact absurd rfl start
  | success | fail | failUpstream => rfl

def Store.Gathered (s : Store) (k : TaskKey) : Prop :=
  s.children k ≠ [] ∧ ∀ c ∈ s.children k, c.status.terminal = true

/-- A reported task waits for the children there are, or ended with its own outcome, or with
the one of its children. -/
def Judgement (s : Store) (t : Task) : Prop :=
  ∀ r, t.result = some r →
    (t.status = .runningSubtasks ∧ t.totalChildren = some (s.children t.key).length) ∨
    t.status = r.outcome.ends ∨
    (s.Gathered t.key ∧ t.status = (s.childrenOutcome t.key).ends)

structure Judged (s : Store) (settling : Option TaskKey) : Prop where
  ready : ∀ t ∈ s.tasks, t.result.isSome → ∀ d ∈ s.dependenciesOf t.key,
    s.unfinished d.upstream = false
  judged : ∀ t ∈ s.tasks, some t.key ≠ settling → Judgement s t

lemma childrenOutcome_eq_success_iff :
    s.childrenOutcome k = .success ↔ ∀ c ∈ s.children k, c.status = .completed := by
  unfold childrenOutcome
  split
  · next none =>
    simpa using none
  · next some =>
    simpa using some

section Rewritten
variable {f : Task → Task} (R : Rewritten s s' f)
  (terminal : ∀ t ∈ s.tasks, t.status.terminal = true → (f t).status = t.status)
include R terminal

lemma Rewritten.unfinished (finished : s.unfinished k = false) : s'.unfinished k = false := by
  obtain ⟨status, found, fin⟩ := unfinished_eq_false_iff.mp finished
  obtain ⟨t, ht, rfl⟩ := map_eq_some_iff.mp found
  refine unfinished_eq_false_iff.mpr ⟨t.status, ?_, fin⟩
  rw [statusOf, R.find, ht, map_some, map_some,
    terminal t (find_mem ht) (terminal_of_finished fin)]

lemma Rewritten.gathered (gathered : s.Gathered k) :
    s'.Gathered k ∧ s'.childrenOutcome k = s.childrenOutcome k := by
  obtain ⟨some, ended⟩ := gathered
  have same : ∀ c ∈ s.children k, (f c).status = c.status := fun c hc =>
    terminal c (mem_children.mp hc).1 (ended c hc)
  constructor
  · constructor
    · rw [R.children]
      simpa using some
    · rw [R.children]
      refine forall_mem_map.mpr fun c hc => ?_
      rw [same c hc]
      exact ended c hc
  · unfold childrenOutcome
    rw [R.children, List.filter_map, List.length_map]
    congr 3
    refine filter_congr fun c hc => ?_
    rw [Function.comp_apply, same c hc]

lemma Judged.rewritten (J : Judged s settling) (rows : ∀ t ∈ s.tasks, (f t).result.isSome →
      ((f t).result = t.result ∧ (f t).status = t.status ∧
        (f t).totalChildren = t.totalChildren ∧ some t.key ≠ settling) ∨
      ((∀ d ∈ s.dependenciesOf t.key, s.unfinished d.upstream = false) ∧
        (some t.key ≠ settling' → Judgement s' (f t)))) : Judged s' settling' := by
  have depsOf : ∀ k, s'.dependenciesOf k = s.dependenciesOf k := by
    intro k
    rw [dependenciesOf, R.deps, dependenciesOf]
  constructor
  · rw [R.tasks]
    refine forall_mem_map.mpr fun t ht reported d hd => ?_
    rw [R.key, depsOf] at hd
    refine R.unfinished terminal ?_
    rcases rows t ht reported with ⟨result, -⟩ | ⟨ready, -⟩
    · exact J.ready t ht (result ▸ reported) d hd
    · exact ready d hd
  · rw [R.tasks]
    refine forall_mem_map.mpr fun t ht notSettling r own => ?_
    rw [R.key] at notSettling
    rcases rows t ht (by rw [own]; rfl) with ⟨result, status, total, notBefore⟩ | ⟨-, judged⟩
    · rw [status, total, R.key, R.children, length_map]
      refine (J.judged t ht notBefore r (result ▸ own)).imp_right (Or.imp_right ?_)
      rintro ⟨gathered, by_children⟩
      obtain ⟨gathered', same⟩ := R.gathered terminal gathered
      exact ⟨gathered', by rw [same, by_children]⟩
    · exact judged notSettling r own

end Rewritten

/-- Why a pass starts from its base task: its own outcome, or the one of its children. -/
def Grounds (s : Store) (base : TaskKey) (outcome : Outcome) : Prop :=
  ∃ t, s.find base = some t ∧ ∀ r, t.result = some r →
    (∀ d ∈ s.dependenciesOf base, s.unfinished d.upstream = false) ∧
    (outcome = r.outcome ∨ (s.Gathered base ∧ outcome = s.childrenOutcome base))

lemma untouched_of_ready (found : s.downstreamUpdates base outcome = some rows)
    (unfinished : s.unfinished base = true) (ne : t.key ≠ base)
    (ready : ∀ d ∈ s.dependenciesOf t.key, s.unfinished d.upstream = false) :
    touched rows t = false := by
  rw [touched, List.any_eq_false]
  intro r hr own
  have own : r.key = t.key := of_decide_eq_true own
  rcases row_cases found hr with rfl | ⟨d, dep, c, o, chain, -, rfl⟩
  · exact ne own.symm
  · have finished := ready d (mem_dependenciesOf.mpr ⟨dep, own⟩)
    rw [chain.unfinished unfinished] at finished
    cases finished

lemma unfinished_of_running (running : s.running base) : s.unfinished base = true := by
  rw [← Bool.not_eq_false, unfinished_eq_false_iff]
  rintro ⟨status, found, finished⟩
  obtain ⟨t, ht, rfl⟩ := map_eq_some_iff.mp found
  have ended := terminal_of_finished finished
  rw [running t (find_mem ht) (find_key ht)] at ended
  cases ended

lemma Judged.turned {next : Option Outcome} (T : Tally s (some base)) (J : Judged s (some base))
    (running : s.running base) (start : outcome ≠ .met) (grounds : Grounds s base outcome)
    (turn : Turned s s' base outcome now rows next) : Judged s' none := by
  have terminal : ∀ resolved, ∀ t ∈ s.tasks, t.status.terminal = true →
      (passed rows now base.parentId resolved t).status = t.status := by
    intro _ t ht ended
    rw [passed_status]
    rcases applyRows_cases T.sound turn.found running ht now with ⟨same, -⟩ | ⟨-, unended, -⟩
    · exact same
    · rw [ended] at unended
      cases unended
  refine J.rewritten turn.rewritten (terminal _) ?_
  intro t ht reported
  rw [passed_result] at reported
  by_cases atBase : t.key = base
  · obtain ⟨row, found, why⟩ := grounds
    rw [← atBase, find_of_mem T.unique ht] at found
    cases found
    obtain ⟨r, own⟩ := isSome_iff_exists.mp reported
    refine .inr ⟨atBase ▸ (why r own).1, fun _ r own => .inr ?_⟩
    rw [passed_result] at own
    rw [passed_status, passed_key, applyRows_status, atBase, firstOutcome_base turn.found start,
      status_eq_ends _ start]
    refine (why r own).2.imp (by rintro rfl; rfl) ?_
    rintro ⟨gathered, rfl⟩
    obtain ⟨gathered', same⟩ := turn.rewritten.gathered (terminal _) gathered
    exact ⟨gathered', by rw [same]⟩
  · have apart := untouched_of_ready turn.found (unfinished_of_running running) atBase
      (J.ready t ht reported)
    refine .inl ⟨passed_result .., ?_, passed_totalChildren .., by simpa using atBase⟩
    rw [passed_status, applyRows, apart]
    rfl

lemma gathered_of_complete (T : Tally s (some k)) (J : Judged s none) (ht : t ∈ s.tasks)
    (complete : t.complete = true) (reported : t.result.isSome)
    (below : ∃ c ∈ s.tasks, c.key.parentId = t.key.childrenId) : s.Gathered t.key := by
  obtain ⟨r, own⟩ := isSome_iff_exists.mp reported
  simp only [Task.complete, Bool.and_eq_true, decide_eq_true_eq] at complete
  obtain ⟨c, mem, parent⟩ := below
  refine ⟨ne_nil_of_mem (mem_children.mpr ⟨mem, parent⟩), ?_⟩
  have total : t.totalChildren = some (s.children t.key).length := by
    rcases J.judged t ht (by simp) r own with ⟨-, total⟩ | ended | ⟨-, ended⟩
    · exact total
    · rw [complete.1, BatchTaskResult.outcome] at ended
      split at ended <;> cases ended
    · rw [complete.1, childrenOutcome] at ended
      split at ended <;> cases ended
  have enough := complete.2
  rw [total, any_some, decide_eq_true_eq, T.counted t ht] at enough
  have all := Nat.le_antisymm countP_le_length enough
  exact countP_eq_length.mp all

lemma Judged.weaken (J : Judged s none) : Judged s settling :=
  ⟨J.ready, fun t ht _ => J.judged t ht (by simp)⟩

lemma Judged.updateTaskStatus {clock : Nat → Time} (T : Tally s (some base))
    (J : Judged s (some base)) (running : s.running base) (start : outcome ≠ .met)
    (grounds : Grounds s base outcome)
    (h : updateTaskStatus base.parentId s clock base.taskId outcome = some s') :
    Judged s' none := by
  refine updateTaskStatus_induction (Q := (Judged · none)) (P := fun s k o => Judged s (some k) ∧
    Grounds s k o ∧ Tally s (some k) ∧ s.running k ∧ o ≠ .met) ?_ ⟨J, grounds, T, running, start⟩ h
  rintro s base outcome now s' next ⟨J, grounds, T, running, start⟩ passed
  obtain ⟨rows, turn⟩ := turned_of_pass T.unique T.named passed
  have J' := J.turned T running start grounds turn
  refine ⟨fun _ => J', fun o climbed => ?_⟩
  obtain ⟨parent, up, T', running', start'⟩ := (T.pass running start passed).2 o climbed
  refine ⟨parent, up, J'.weaken, ?_, T', running', start'⟩
  obtain ⟨row, mem, above, complete, rfl⟩ := turn.climbs o climbed
  obtain rfl : row.key = parent := childrenId_inj (above.trans up.symm)
  obtain ⟨child, found, -⟩ := grounds
  have below : ∃ c ∈ s'.tasks, c.key.parentId = row.key.childrenId :=
    ⟨_, turn.rewritten.mem (find_mem found), by rw [passed_key, find_key found, above]⟩
  refine ⟨row, find_of_mem T'.unique mem, fun r own => ⟨?_, .inr ⟨?_, rfl⟩⟩⟩
  · exact J'.ready row mem (by rw [own]; rfl)
  · exact gathered_of_complete T' J' mem complete (by rw [own]; rfl) below

lemma Judged.recordResult (T : Tally s none) (J : Judged s none) (result : FinalResult)
    (now : Time) {row : Task} (found : s.find k = some row) (running : row.status.terminal = false)
    (ready : ∀ d ∈ s.dependenciesOf k, s.unfinished d.upstream = false) :
    Judged (s.recordResult k result now)
        (if (s.children k).length > row.completedChildren then none else some k) ∧
      Grounds (s.recordResult k result now) k result.payload.outcome := by
  have own : ∀ t ∈ s.tasks, t.key = k → t = row := fun t => eq_of_find T.unique found
  have R := recordResult_rewritten (s := s) (k := k) result now
  have terminal : ∀ t ∈ s.tasks, t.status.terminal = true →
      (s.recorded k result now t).status = t.status := by
    intro t ht ended
    unfold recorded
    split
    · next atKey =>
      rw [own t ht atKey, running] at ended
      cases ended
    · rfl
  constructor
  · refine J.rewritten R terminal fun t ht _ => ?_
    unfold recorded
    split
    · next atKey =>
      refine .inr ⟨atKey ▸ ready, fun notSettling r _ => .inl ?_⟩
      obtain rfl := own t ht atKey
      have more : (s.children k).length > t.completedChildren := by
        by_contra enough
        rw [if_neg enough, atKey] at notSettling
        exact notSettling rfl
      exact ⟨if_pos more, by rw [R.children, length_map, atKey]⟩
    · exact .inl ⟨rfl, rfl, rfl, by simp⟩
  · refine ⟨_, (R.find k).trans (congrArg _ found), fun r reported => ⟨?_, .inl ?_⟩⟩
    · intro d hd
      exact R.unfinished terminal (ready d hd)
    · rw [recorded, if_pos (find_key found)] at reported
      rw [Option.some.inj reported]

lemma Judged.kept {f : Task → Task} (T : Tally s none) (J : Judged s none) (R : Rewritten s s' f)
    (rows : ∀ t ∈ s.tasks, (f t).result = t.result ∧ (f t).totalChildren = t.totalChildren ∧
      ((f t).status = t.status ∨ t.status = .queueing ∨ t.status = .leased)) : Judged s' none := by
  refine J.rewritten R ?_ ?_
  · intro t ht ended
    rcases (rows t ht).2.2 with same | queueing | leased
    · exact same
    · rw [queueing] at ended
      cases ended
    · rw [leased] at ended
      cases ended
  · intro t ht reported
    obtain ⟨result, total, status⟩ := rows t ht
    refine .inl ⟨result, ?_, total, by simp⟩
    have waits := T.awaits t ht (by simp) (result ▸ reported)
    rcases status with same | queueing | leased
    · exact same
    · simp [queueing, Status.terminal] at waits
    · simp [leased, Status.terminal] at waits

lemma Judged.createTask {key : TaskKey} {count : Int} (T : Tally s none) (J : Judged s none)
    (unnamed : r.dependencies = [] ∨ s.find r.taskId = none)
    (early : ∀ t ∈ s.tasks, t.key.childrenId = r.taskId.parentId → t.result = none)
    (h : createTask s r now = some (s', key, count)) : Judged s' none := by
  obtain ⟨added, name, status, tasks, deps, isPre, rfl, free, -, -, -⟩ := createTask_cases h
  have split : ∀ t ∈ s'.tasks, t ∈ s.tasks ∨ t = r.row name status count now := by
    intro t ht
    rw [tasks] at ht
    simpa using ht
  have finds : ∀ {k t}, s.find k = some t → s'.find k = some t := by
    intro k t found
    rw [find] at found ⊢
    rw [tasks, List.find?_append, found, some_or]
  have children : ∀ t ∈ s.tasks, t.result.isSome → s'.children t.key = s.children t.key := by
    intro t ht reported
    rw [append_children tasks, if_neg, append_nil]
    intro below
    rw [early t ht below.symm] at reported
    cases reported
  constructor
  · intro t ht reported d hd
    rcases split t ht with old | rfl
    · have known : d ∈ s.dependenciesOf t.key := by
        obtain ⟨mem, own⟩ := mem_dependenciesOf.mp hd
        rw [deps] at mem
        rcases mem_append.mp mem with before | new
        · exact mem_dependenciesOf.mpr ⟨before, own⟩
        · obtain ⟨e, he, rfl⟩ := mem_map.mp (isPre.subset new)
          rcases unnamed with none | free
          · rw [none] at he
            cases he
          · have atKey : r.taskId = t.key := own
            rw [atKey, find_of_mem T.unique old] at free
            cases free
      obtain ⟨st, found, finished⟩ := unfinished_eq_false_iff.mp (J.ready t old reported d known)
      obtain ⟨u, hu, rfl⟩ := map_eq_some_iff.mp found
      exact unfinished_eq_false_iff.mpr
        ⟨u.status, by rw [statusOf, finds hu, map_some], finished⟩
    · cases reported
  · intro t ht _ result own
    rcases split t ht with old | rfl
    · have same := children t old (by rw [own]; rfl)
      have before := J.judged t old (by simp) result own
      simpa only [Store.Gathered, childrenOutcome, same] using before
    · cases own

/-- The children of a task are created before it reports, a task that reports has only
finished upstreams, and nothing is cancelled. -/
def Timely (s : Store) (op : JobOp) : Prop :=
  Accounted s op ∧
    match op with
    | .store (.create r _) => (r.dependencies = [] ∨ s.find r.taskId = none) ∧
        ∀ t ∈ s.tasks, t.key.childrenId = r.taskId.parentId → t.result = none
    | .store (.report k result _) => result.cancelled = false ∧
        ∀ d ∈ s.dependenciesOf k, s.unfinished d.upstream = false
    | .cancelJob _ _ => False
    | _ => True

instance (s : Store) (op : JobOp) : Decidable (Timely s op) := by
  induction op using JobOp.casesOn with
  | store op => induction op using Op.casesOn <;> unfold Timely <;> infer_instance
  | _ => unfold Timely; infer_instance

lemma Judged.updateTaskFinalResult {clock : Nat → Time} (T : Tally s none) (J : Judged s none)
    (reports : result.cancelled = false) (running : ∀ row ∈ s.find k, row.status.terminal = false)
    (ready : ∀ d ∈ s.dependenciesOf k, s.unfinished d.upstream = false)
    (h : updateTaskFinalResult s k result clock = some s') : Judged s' none := by
  unfold TaskStore.updateTaskFinalResult at h
  rw [if_neg (by simp [reports])] at h
  split at h
  · cases h
  · next row found =>
    obtain ⟨still, counted⟩ := T.recordResult result (clock 0) found (running row found)
    obtain ⟨recorded, grounds⟩ :=
      J.recordResult T result (clock 0) found (running row found) ready
    split at h
    · next more =>
      cases h
      rw [if_pos more] at recorded
      exact ⟨recorded.ready, recorded.judged⟩
    · next enough =>
      rw [if_neg enough] at counted recorded
      exact recorded.updateTaskStatus counted still (outcome_ne_met _) grounds h

lemma Judged.jobStep (T : Tally s none) (J : Judged s none) (timely : Timely s op)
    (h : jobStep s op = some s') : Judged s' none := by
  obtain ⟨accounted, timely⟩ := timely
  rcases op with (⟨r, now⟩ | leaser | ⟨k, result, clock⟩) | ⟨jobId, now⟩ | expired | ⟨k, leaser⟩
  · obtain ⟨⟨t, key, count⟩, created, rfl⟩ := map_eq_some_iff.mp h
    exact J.createTask T timely.1 timely.2 created
  · cases h
    refine J.kept T ⟨rfl, rfl, fun t => by split <;> rfl⟩ fun t ht => ?_
    split
    · next chosen => exact ⟨rfl, rfl, .inr (.inl (ready_of_available T.unique ht chosen).1)⟩
    · exact ⟨rfl, rfl, .inl rfl⟩
  · obtain ⟨reports, ready⟩ := timely
    exact J.updateTaskFinalResult T reports (by simpa [Accounted, reports] using accounted) ready h
  · exact timely.elim
  · cases h
    refine J.kept T ⟨rfl, rfl, fun t => by split <;> rfl⟩ fun t ht => ?_
    split
    · next released =>
      simp only [Bool.and_eq_true, decide_eq_true_eq] at released
      exact ⟨rfl, rfl, .inr (.inr released.1)⟩
    · exact ⟨rfl, rfl, .inl rfl⟩
  · simp only [TaskStore.jobStep, reconnectTask] at h
    split at h
    · cases h
      refine J.kept T ⟨rfl, rfl, fun t => by split <;> rfl⟩ fun t _ => ?_
      split <;> exact ⟨rfl, rfl, .inl rfl⟩
    · cases h

lemma judged_of_reachable (h : Reachable jobStep Timely .empty s) :
    Tally s none ∧ Judged s none := by
  refine h.invariant (I := fun s => Tally s none ∧ Judged s none) ⟨.empty, ?_⟩ ?_
  · constructor <;> simp [empty]
  · rintro s op s' ⟨T, J⟩ timely taken
    exact ⟨T.jobStep timely.1 taken, J.jobStep T timely taken⟩

lemma status_of_agreement (h : Reachable jobStep Timely .empty s) (found : s.find k = some t)
    (own : t.result = some r) (ended : ∀ c ∈ s.children k, c.status.terminal = true) (agrees :
      s.children k ≠ [] → (r.outcome = .success ↔ ∀ c ∈ s.children k, c.status = .completed)) :
    t.status = r.outcome.ends := by
  obtain ⟨T, J⟩ := judged_of_reachable h
  have mem := find_mem found
  obtain rfl := find_key found
  rcases J.judged t mem (by simp) r own with ⟨waiting, -⟩ | same | ⟨gathered, same⟩
  · rcases T.awaits t mem (by simp) (by rw [own]; rfl) with done | ⟨-, n, -, below, bound⟩
    · rw [waiting] at done
      cases done
    · have all : s.ended t.key = (s.children t.key).length := countP_eq_length.mpr ended
      rw [T.counted t mem, all] at below
      omega
  · exact same
  · have outcome : s.childrenOutcome t.key = r.outcome := by
      have both := (agrees gathered.1).trans childrenOutcome_eq_success_iff.symm
      revert both
      unfold childrenOutcome BatchTaskResult.outcome
      split <;> split <;> simp
    rw [same, outcome]

/-- In any two runs in which a task reports the same outcome and its children end the same
way, it ends the same way, provided the two say the same. -/
theorem final_status_unique {s s' : Store} {k : TaskKey} {t t' : Task} {r r' : BatchTaskResult}
    (h : Reachable jobStep Timely .empty s) (h' : Reachable jobStep Timely .empty s')
    (found : s.find k = some t) (found' : s'.find k = some t')
    (own : t.result = some r) (own' : t'.result = some r') (same : r.outcome = r'.outcome)
    (ended : ∀ c ∈ s.children k, c.status.terminal = true)
    (children : ((s.children k).map fun c => (c.key, c.status)).Perm
      ((s'.children k).map fun c => (c.key, c.status))) (agrees : s.children k ≠ [] →
      (r.outcome = .success ↔ ∀ c ∈ s.children k, c.status = .completed)) :
    t.status = t'.status ∧ t.status.terminal = true := by
  have transfer : ∀ p : Status → Prop, (∀ c ∈ s.children k, p c.status) ↔
      ∀ c ∈ s'.children k, p c.status := by
    intro p
    have both : (∀ c ∈ (s.children k).map fun c => (c.key, c.status), p c.2) ↔
        ∀ c ∈ (s'.children k).map fun c => (c.key, c.status), p c.2 := by
      simp only [children.mem_iff]
    simpa only [List.forall_mem_map] using both
  have first := status_of_agreement h found own ended agrees
  have second := status_of_agreement h' found' own' ((transfer (·.terminal = true)).mp ended) (by
    intro some
    rw [← same, ← transfer (· = .completed)]
    refine agrees fun none => some ?_
    rw [none, map_nil, nil_perm, map_eq_nil_iff] at children
    exact children)
  refine ⟨by rw [first, second, same], ?_⟩
  rw [first, BatchTaskResult.outcome]
  split <;> rfl

def parentKey : TaskKey := ⟨[], "p"⟩

def Reported (code : Int) (child : Status) (s : Store) : Prop :=
  (s.find parentKey).bind (·.result) = some ⟨some code, 0⟩ ∧
    (s.children parentKey).map (fun c => (c.key, c.status)) = [(⟨["p"], "a"⟩, child)]

instance (code : Int) (child : Status) (s : Store) : Decidable (Reported code child s) :=
  inferInstanceAs (Decidable (_ ∧ _))

def begun : List JobOp := [.store (request "p" []), polls, subtask "a" [], polls]

theorem final_status_unique_orders :
    ∃ s s' t t', Reachable jobStep Timely .empty s ∧ Reachable jobStep Timely .empty s' ∧
      s.find parentKey = some t ∧ s'.find parentKey = some t' ∧
      t.status = t'.status ∧ t.status.terminal = true := by
  obtain ⟨s, reached, reported, children⟩ := exists_of_run jobStep Timely .empty
    (begun ++ [subtaskExits "a" 0, .store (exits "p" 0)]) (Reported 0 .completed) (by decide)
  obtain ⟨s', reached', reported', children'⟩ := exists_of_run jobStep Timely
    .empty (List.flatten [begun, [.store (exits "p" 0),
      subtaskExits "a" 0]]) (Reported 0 .completed)
    (by decide)
  obtain ⟨t, found, own⟩ := bind_eq_some_iff.mp reported
  obtain ⟨t', found', own'⟩ := bind_eq_some_iff.mp reported'
  have completed : ∀ c ∈ s.children parentKey, c.status = .completed := by
    intro c hc
    have mem := mem_map_of_mem (f := fun c : Task => (c.key, c.status)) hc
    rw [children, mem_singleton] at mem
    exact congrArg Prod.snd mem
  have outcome : BatchTaskResult.outcome ⟨some 0, 0⟩ = .success := by decide
  have final := final_status_unique reached reached' found found' own own' rfl
    (fun c hc => by rw [completed c hc]; rfl) (by rw [children, children'])
    (fun _ => by simpa [outcome] using completed)
  exact ⟨s, s', t, t', reached, reached', found, found', final⟩

/-- A parent that fails and whose child succeeds: it has failed when it reports last, and
completed when it reports first. -/
theorem final_status_ambiguous :
    ∃ s s' t t', Reachable jobStep Timely .empty s ∧ Reachable jobStep Timely .empty s' ∧
      s.find parentKey = some t ∧ s'.find parentKey = some t' ∧
      Reported 1 .completed s ∧ Reported 1 .completed s' ∧
      t.status = .failed ∧ t'.status = .completed := by
  obtain ⟨s, reached, reported, failed⟩ := exists_of_run jobStep Timely .empty
    (begun ++ [subtaskExits "a" 0, .store (exits "p" 1)])
    (fun s => Reported 1 .completed s ∧ s.statusOf parentKey = some .failed) (by decide)
  obtain ⟨s', reached', reported', completed⟩ := exists_of_run jobStep Timely
    .empty (List.flatten [begun, [.store (exits "p" 1), subtaskExits "a" 0]])
    (fun s => Reported 1 .completed s ∧ s.statusOf parentKey = some .completed) (by decide)
  obtain ⟨t, found, status⟩ := map_eq_some_iff.mp failed
  obtain ⟨t', found', status'⟩ := map_eq_some_iff.mp completed
  exact ⟨s, s', t, t', reached, reached', found, found', reported, reported', status, status'⟩

end Velda.TaskStore
