import Velda.TaskStore.Ended

/-! Whether the recursive query of `updateTaskStatus` ends. It does along every run in which no
creation closes a circle of dependencies; names may be used before their tasks exist, so that a
circle can be closed by tasks created later. -/
namespace Velda.TaskStore
open Lib

def Layered (s : Store) : Op → Prop
  | .create r _ => Acyclic (s.deps ++ r.dependencyRows)
  | _ => True

lemma acyclic_step (acyclic : Acyclic s.deps) (layered : Layered s op) (h : step s op = some s') :
    Acyclic s'.deps := by
  cases op with
  | create r now =>
    obtain ⟨⟨t, key, count⟩, created, rfl⟩ := Option.map_eq_some_iff.mp h
    obtain ⟨added, -, -, -, deps, part, -⟩ := createTask_cases created
    obtain ⟨rank, ranked⟩ := layered
    refine ⟨rank, fun d mem => ranked d ?_⟩
    rw [deps, List.mem_append] at mem
    exact List.mem_append.mpr (mem.imp_right (part.subset ·))
  | poll leaser =>
    cases h
    exact acyclic
  | report k result clock =>
    rw [updateTaskFinalResult_deps h]
    exact acyclic

/-- Every report of a result for a leased task returns. -/
theorem propagation_ends {s : Store} {k : TaskKey} (result : FinalResult) (clock : Nat → Time)
    (h : Reachable step Layered .empty s) (leased : s.statusOf k = some .leased) :
    (updateTaskFinalResult s k result clock).isSome := by
  have acyclic : Acyclic s.deps :=
    h.invariant (I := fun s => Acyclic s.deps) ⟨fun _ => 0, by simp [Store.empty, Ranked]⟩
      fun _ _ _ before ok taken => acyclic_step before ok taken
  refine updateTaskFinalResult_isSome acyclic result clock ?_
  obtain ⟨row, found, -⟩ := Option.map_eq_some_iff.mp leased
  exact Option.isSome_of_mem found

def forward : List Op := [request "b" [("a", .success)], request "a" [], .poll "broker"]

theorem propagation_ends_forward : ∃ s, Reachable step Layered .empty s ∧
    s.statusOf ⟨[], "a"⟩ = some .leased ∧
    (updateTaskFinalResult s ⟨[], "a"⟩ { payload := ⟨some 1, 0⟩ } fun i => i).isSome := by
  obtain ⟨s, reached, leased⟩ := exists_of_run step
    (ValidBy fun k => ["a", "b"].idxOf k.taskId) .empty forward
    (fun s => s.statusOf ⟨[], "a"⟩ = some .leased) (by decide)
  have layered : Reachable step Layered .empty s := by
    refine reached.weaken fun s op valid => ?_
    cases op with
    | create r now => exact ⟨_, valid.2.2⟩
    | poll => trivial
    | report => trivial
  exact ⟨s, layered, leased, propagation_ends _ _ layered leased⟩

def around : List Op :=
  [request "c" [("b", .success)], request "b" [("a", .success), ("c", .success)],
    request "a" [], .poll "broker"]

/-- `b` waits for `a` and for `c`, which waits for `b`. When `a` fails, `b` and `c` fail each
other for ever. -/
theorem propagation_endless : ∃ s, Reachable step Any .empty s ∧
    s.statusOf ⟨[], "a"⟩ = some .leased ∧
    (∀ rounds, recursiveQuery s.downstreamRows rounds [⟨⟨[], "a"⟩, .fail⟩] = none) ∧
    updateTaskFinalResult s ⟨[], "a"⟩ { payload := ⟨some 1, 0⟩ } (fun i => i) = none := by
  obtain ⟨s, ran, leased, chain, stuck⟩ : ∃ s ∈ runChecked step Any .empty around,
      s.statusOf ⟨[], "a"⟩ = some .leased ∧
      (⟨⟨[], "b"⟩, .failUpstream⟩ ∈ s.downstreamRows ⟨⟨[], "a"⟩, .fail⟩ ∧
        ⟨⟨[], "c"⟩, .failUpstream⟩ ∈ s.downstreamRows ⟨⟨[], "b"⟩, .failUpstream⟩ ∧
        ⟨⟨[], "b"⟩, .failUpstream⟩ ∈ s.downstreamRows ⟨⟨[], "c"⟩, .failUpstream⟩) ∧
      updateTaskFinalResult s ⟨[], "a"⟩ { payload := ⟨some 1, 0⟩ } (fun i => i) = none := by
    decide
  refine ⟨s, reachable_of_runChecked ran, leased, fun rounds => ?_, stuck⟩
  refine recursiveQuery_eq_none (p := fun r => r = ⟨⟨[], "a"⟩, .fail⟩ ∨
    r = ⟨⟨[], "b"⟩, .failUpstream⟩ ∨ r = ⟨⟨[], "c"⟩, .failUpstream⟩) ?_
    (List.mem_singleton_self _) (.inl rfl)
  rintro r (rfl | rfl | rfl)
  · exact ⟨_, chain.1, .inr (.inl rfl)⟩
  · exact ⟨_, chain.2.1, .inr (.inr rfl)⟩
  · exact ⟨_, chain.2.2, .inr (.inl rfl)⟩

end Velda.TaskStore
