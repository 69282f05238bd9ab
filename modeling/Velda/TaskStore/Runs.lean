import Velda.TaskStore.Create

/-! Runs of the store: any finite sequence of creations, polls and reports. The
counters are exact along every run in which no task is refused at creation while
others wait for it, and no pass meets a forked failure. -/
variable {s : Store} {op : Op} {base : TaskKey} {outcome : Outcome}

namespace Velda.TaskStore
open Lib

inductive Op
  | create (session : SessionRequest) (now : Time)
  | poll (leaserIdentity : String)
  | report (key : TaskKey) (result : FinalResult) (clock : Nat → Time)

def step (s : Store) : Op → Option Store
  | .create session now => (createTask s session now).map (·.1)
  | .poll leaserIdentity => some (pollTasksOnce s leaserIdentity).1
  | .report key result clock => updateTaskFinalResult s key result clock

/-- New ids, no upstream twice, dependencies that go up in `rank`, and one report that is
not a cancellation for each leased task. -/
def ValidBy (rank : TaskKey → Nat) (s : Store) : Op → Prop
  | .create r _ => s.find r.taskId = none ∧ (r.dependencies.map (·.1)).Nodup ∧
      Ranked rank (s.deps ++ r.dependencyRows)
  | .poll _ => True
  | .report k result _ => result.cancelled = false ∧
      ∃ row ∈ s.find k, row.leaseBy.isSome ∧ row.result = none

def Valid (s : Store) (op : Op) : Prop := ∃ rank, ValidBy rank s op

def Clean (s : Store) : Op → Prop
  | .create r _ => CreateClean s r
  | .poll _ => True
  | .report k result clock => ReportUnforked s k result clock

instance (rank : TaskKey → Nat) (s : Store) (op : Op) : Decidable (ValidBy rank s op) := by
  induction op using Op.casesOn <;> unfold ValidBy <;> infer_instance

lemma Consistent.empty : Consistent .empty := by
  refine ⟨?_, ?_, ⟨fun _ => 0, ?_⟩, ?_, ?_, ?_, ?_, ?_, ?_⟩ <;>
    simp [Store.empty, Store.UniqueKeys, Ranked, CountersExact]

lemma consistent_step (C : Consistent s) (valid : Valid s op) (clean : Clean s op)
    (h : step s op = some t) : Consistent t := by
  obtain ⟨rank, valid⟩ := valid
  cases op with
  | create r now =>
    obtain ⟨free, nodup, ranked⟩ := valid
    obtain ⟨⟨t, key, count⟩, created, rfl⟩ := Option.map_eq_some_iff.mp h
    exact C.createTask free nodup ⟨rank, ranked⟩ clean created
  | poll leaser =>
    cases h
    exact C.pollTasksOnce leaser
  | report k result clock =>
    obtain ⟨finished, row, found, hasLease, noResult⟩ := valid
    exact C.updateTaskFinalResult found hasLease noResult finished clean h

lemma consistent_of_reachable (h : Reachable step (fun s op => Valid s op ∧ Clean s op) .empty s) :
    Consistent s :=
  h.invariant .empty fun _ _ _ C ok taken => consistent_step C ok.1 ok.2 taken

lemma polled_of_mem (unique : s.UniqueKeys) (h : t ∈ (pollTasksOnce s leaser).2) :
    ∃ before ∈ s.tasks, before.key = t.key ∧ before.status = .queueing ∧
      before.pendingUpstreams = 0 := by
  obtain ⟨before, mem, rfl⟩ := List.mem_map.mp h
  obtain ⟨ht, chosen⟩ := List.mem_filter.mp mem
  exact ⟨before, ht, rfl, ready_of_available unique ht chosen⟩

/-- Counters are exact, leased tasks have only finished upstreams their triggers accept, and
a queueing task with finished upstreams can be leased. -/
theorem dependency_counters_exact {s : Store}
    (h : Reachable step (fun s op => Valid s op ∧ Clean s op) .empty s) : CountersExact s ∧
      (∀ leaser, ∀ t ∈ (pollTasksOnce s leaser).2, ∀ d ∈ s.dependenciesOf t.key, ∃ st,
        s.statusOf d.upstream = some st ∧ st.finished = true ∧ d.trigger.allows st = true) ∧
      ∀ t ∈ s.tasks, t.status = .queueing →
        (∀ d ∈ s.dependenciesOf t.key, s.unfinished d.upstream = false) →
        t.pendingUpstreams = 0 := by
  have C := consistent_of_reachable h
  refine ⟨C.exact, ?_, ?_⟩
  · intro leaser t ht d hd
    obtain ⟨before, mem, atKey, queueing, zero⟩ := polled_of_mem C.unique ht
    rw [← atKey] at hd
    obtain ⟨st, found, finished⟩ :=
      unfinished_eq_false_iff.mp (C.upstreams_finished mem queueing zero d hd)
    have isOpen : before.status.open = true := by rw [queueing]; rfl
    exact ⟨st, found, finished, C.allowed before mem isOpen d hd st found finished⟩
  · intro t ht queueing finished
    rw [C.exact t ht queueing, Int.natCast_eq_zero, List.countP_eq_zero]
    intro d hd
    rw [finished d hd]
    exact Bool.false_ne_true

def request (name : Name) (dependencies : List (Name × DependencyType)) : Op :=
  .create { taskId := ⟨[], name⟩, dependencies := dependencies } 1

def exits (name : Name) (code : Int) : Op :=
  .report ⟨[], name⟩ { payload := ⟨some code, 0⟩ } fun i => i + 2

/-- `a` fails; `d` fails through both `b` and `c`, so the counter of `e`, which also waits
for `f`, drops by two and `e` is leased. `h` is refused after `g` named it, and `g` waits
forever. -/
theorem dependency_counters_miscount :
    (∃ s, Reachable step Valid .empty s ∧ ∃ t ∈ (pollTasksOnce s "broker").2,
      ∃ d ∈ s.dependenciesOf t.key, s.unfinished d.upstream = true) ∧
    ∃ s, Reachable step Valid .empty s ∧ ∃ t ∈ s.tasks, t.status = .queueing ∧
      (∀ d ∈ s.dependenciesOf t.key, s.unfinished d.upstream = false) ∧ t.pendingUpstreams = 1 := by
  have ordered : ∀ (order : List Name) (acts : List Op) (p : Store → Prop),
      (∃ s ∈ runChecked step (ValidBy fun k => order.idxOf k.taskId) .empty acts, p s) →
      ∃ s, Reachable step Valid .empty s ∧ p s := by
    intro order acts p h
    obtain ⟨s, reached, holds⟩ := exists_of_run _ _ _ _ _ h
    exact ⟨s, reached.weaken fun _ _ valid => ⟨_, valid⟩, holds⟩
  constructor
  · refine ordered ["a", "f", "b", "c", "d", "e"]
      [request "a" [], request "f" [], request "b" [("a", .success)],
        request "c" [("a", .success)], request "d" [("b", .success), ("c", .success)],
        request "e" [("d", .unspecified), ("f", .unspecified)], .poll "broker", exits "a" 1] _ ?_
    decide
  · refine ordered ["a", "h", "g"]
      [request "a" [], request "g" [("h", .unspecified)], .poll "broker", exits "a" 1,
        request "h" [("a", .success)]] _ ?_
    decide

def Single (deps : List Dependency) : Prop :=
  ∀ d ∈ deps, ∀ e ∈ deps, d.downstream = e.downstream → d = e

instance (deps : List Dependency) : Decidable (Single deps) :=
  inferInstanceAs (Decidable (∀ d ∈ deps, ∀ e ∈ deps, _ → _))

lemma FailChain.last (h : FailChain s base outcome c v o) :
    (c = [] ∧ v = base) ∨ ∃ d rest u, c = d :: rest ∧ d ∈ s.deps ∧ d.downstream = v ∧
      FailChain s base outcome rest d.upstream u := by
  cases h with
  | base => exact .inl ⟨rfl, rfl⟩
  | link first dep _ _ => exact .inr ⟨_, _, _, rfl, dep, rfl, first⟩

lemma FailChain.eq_of_single (acyclic : Acyclic s.deps) (single : Single s.deps)
    (h : FailChain s base outcome c v o) (h' : FailChain s base outcome c' v o') : c = c' := by
  obtain ⟨rank, ranked⟩ := acyclic
  induction h generalizing c' o' with
  | base => exact (h'.of_base ranked).1.symm
  | link first dep isOpen fails ih =>
    rcases h'.last with ⟨-, atBase⟩ | ⟨e, rest, u, rfl, dep', same, first'⟩
    · have whole := FailChain.link first dep isOpen fails
      rw [atBase] at whole
      cases (whole.of_base ranked).1
    · obtain rfl := single e dep' _ dep same
      rw [ih first']

lemma passesUnforked_of_single (parentId : List Name) (clock : Nat → Time) (taskId : Name)
    (outcome : Outcome) (acyclic : Acyclic s.deps) (single : Single s.deps) :
    PassesUnforked parentId s clock taskId outcome := by
  induction parentId generalizing s clock taskId outcome with
  | nil => exact fun _ _ _ _ _ _ _ _ h h' => h.eq_of_single acyclic single h'
  | cons p grand ih =>
    refine ⟨fun _ _ _ _ _ _ _ _ h h' => h.eq_of_single acyclic single h', ?_⟩
    intro s' resolved passed _ s'' next counted
    have same := (completeChildren_deps counted).trans (propagate_deps passed)
    exact ih _ _ _ (same ▸ acyclic) (same ▸ single)

/-- An operation on a store of single dependencies, with a condition that can be evaluated. -/
def SingleBy (rank : TaskKey → Nat) (s : Store) (op : Op) : Prop :=
  ValidBy rank s op ∧ Ranked rank s.deps ∧ Single s.deps ∧
    match op with
    | .create r _ => CreateClean s r
    | _ => True

instance (rank : TaskKey → Nat) (s : Store) (op : Op) : Decidable (SingleBy rank s op) := by
  induction op using Op.casesOn <;> unfold SingleBy <;> infer_instance

lemma clean_of_singleBy {rank : TaskKey → Nat} (h : SingleBy rank s op) :
    Valid s op ∧ Clean s op := by
  obtain ⟨valid, ranked, single, clean⟩ := h
  refine ⟨⟨rank, valid⟩, ?_⟩
  cases op with
  | create => exact clean
  | poll => trivial
  | report k result clock =>
    exact fun _ _ _ => passesUnforked_of_single _ _ _ _ ⟨rank, ranked⟩ single

theorem dependency_counters_exact_chain :
    ∃ s, Reachable step (fun s op => Valid s op ∧ Clean s op) .empty s ∧
      (s.tasks.map fun t => (t.key.taskId, t.status, t.pendingUpstreams)) =
        [("a", .failed, 0), ("b", .failedUpstream, 0), ("c", .queueing, 0)] ∧ CountersExact s := by
  obtain ⟨s, reached, rows⟩ := exists_of_run step
    (SingleBy fun k => ["a", "b", "c"].idxOf k.taskId) .empty
    [request "a" [], request "b" [("a", .success)], request "c" [("b", .unspecified)],
      .poll "broker", exits "a" 1]
    (fun s => (s.tasks.map fun t => (t.key.taskId, t.status, t.pendingUpstreams)) =
      [("a", .failed, 0), ("b", .failedUpstream, 0), ("c", .queueing, 0)]) (by decide)
  have clean := reached.weaken fun _ _ => clean_of_singleBy
  exact ⟨s, clean, rows, (dependency_counters_exact clean).1⟩

end Velda.TaskStore
