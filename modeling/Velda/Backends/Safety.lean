import Velda.Backends.Phases

/-! What the asynchronous manager promises: no worker is forgotten after a request to delete
it, and no worker is handed out twice. Both fail when `ListWorkers` installs a list that
the provider has made before a worker was started and the goroutine that started it has
ended: the worker is taken out of `activeWorkers`, or put back among the suspended ones. -/
namespace Velda.Backends
open Lib

variable {ν : Type} [DecidableEq ν]

/-- When all goroutines have ended, every worker that was started and requested to be deleted has
been suspended or deleted since. -/
theorem no_worker_leaked {resumable : Bool} {maxSuspended : Nat} {remote : Remote ν} {s : Manager ν}
    (h : Reachable step Careful (makeAsyncResumable resumable maxSuspended remote) s)
    (creators : s.creators = ∅) (deleters : s.deleters = ∅) : s.owed = ∅ := by
  refine Finset.eq_empty_of_forall_notMem fun n owed => ?_
  have creatorsOf : (s.view n).creators = ∅ := by simp [Manager.view, creators]
  have deletersOf : (s.view n).deleters = ∅ := by simp [Manager.view, deleters]
  cases (Manager.Orderly.of_reachable h).phase n with
  | free idle | parked idle | inUse idle => exact idle.owed owed
  | starting _ starts | doomed _ _ starts => simp [starts.creators] at creatorsOf
  | ending _ ends | ended _ ends => simp [ends.deleters] at deletersOf

def starts (op : Nat) (name : ν) (resume : Bool) : List (Action ν) :=
  [.create ⟨op, name, resume, .calling⟩, .create ⟨op, name, resume, .called⟩,
    .create ⟨op, name, resume, .cached⟩]

def ends (op : Nat) (name : ν) (suspend : Bool) : List (Action ν) :=
  [.delete ⟨op, name, suspend, none, .waiting⟩, .delete ⟨op, name, suspend, none, .found⟩,
    .delete ⟨op, name, suspend, none, .called⟩]

theorem no_worker_leaked_run :
    ∃ s : Manager Nat, Reachable step Careful (makeAsyncResumable true 1 .empty) s ∧
      s.remote.active = ∅ ∧ s.listed = [{7}] ∧ s.owed = ∅ := by
  obtain ⟨s, reached, creators, deleters, active, listed⟩ := exists_of_run step
    Careful (makeAsyncResumable true 1 .empty : Manager Nat)
    (List.flatten [[.requestScaleUp 7], starts 0 7 false, [.listWorkers,
      .listRemoteWorkers ⟨1, ∅, ∅, none⟩, .rebuild ⟨1, ∅, ∅, some (Remote.empty.start 7)⟩,
      .requestDelete 7], ends 2 7 true, [.requestScaleUp 7], starts 3 7 true,
      [.requestDelete 7], ends 4 7 true])
    (fun s => s.creators = ∅ ∧ s.deleters = ∅ ∧ s.remote.active = ∅ ∧ s.listed = [{7}])
    (by decide +kernel)
  exact ⟨s, reached, active, listed, no_worker_leaked reached creators deleters⟩

def HandedOut (s : Manager ν) : Action ν → Prop
  | .requestDelete name => name ∈ s.held
  | _ => True

instance (s : Manager ν) (a : Action ν) : Decidable (HandedOut s a) := by
  induction a using Action.casesOn <;> unfold HandedOut <;> infer_instance

/-- A list that the provider made before the worker existed hides it from `RequestDelete`; it
runs on. -/
theorem worker_leaked :
    ∃ s : Manager Nat, Reachable step HandedOut (makeAsyncResumable false 0 .empty) s ∧
      s.creators = ∅ ∧ s.deleters = ∅ ∧ 7 ∈ s.owed ∧ 7 ∈ s.remote.active :=
  exists_of_run step HandedOut (makeAsyncResumable false 0 .empty : Manager Nat)
    (List.flatten [[.listWorkers, .listRemoteWorkers ⟨0, ∅, ∅, none⟩, .requestScaleUp 7],
      starts 1 7 false, [.rebuild ⟨0, ∅, ∅, some .empty⟩, .requestDelete 7,
      .delete ⟨2, 7, false, none, .waiting⟩, .delete ⟨2, 7, false, none, .missing⟩]])
    _ (by decide +kernel)

/-- The worker is being started, or there was no request to delete it since it was. -/
def Manager.InUse (s : Manager ν) (name : ν) : Prop :=
  (∃ c ∈ s.creators, c.name = name) ∨ name ∈ s.held

instance (s : Manager ν) (name : ν) : Decidable (s.InUse name) :=
  inferInstanceAs (Decidable (_ ∨ _))

/-- `RequestScaleUp` returns no worker in use, no worker is active and suspended, and no more are
suspended on request than allowed. -/
structure Manager.Exclusive (s : Manager ν) : Prop where
  fresh : ∀ name t, step s (.requestScaleUp name) = some t → ¬ s.InUse name
  apart : ∀ name ∈ s.activeWorkers, name ∉ s.suspendedWorkers
  bounded : ((s.suspendedWorkers ∪ s.suspendingWorkers) ∩ s.caused).card ≤ s.maxSuspended

theorem workers_exclusive {resumable : Bool} {maxSuspended : Nat} {remote : Remote ν}
    {s : Manager ν}
    (h : Reachable step Careful (makeAsyncResumable resumable maxSuspended remote) s) :
    s.Exclusive := by
  have orderly := Manager.Orderly.of_reachable h
  refine ⟨fun name t taken => ?_, fun name active suspended => ?_, ?_⟩
  · obtain ⟨idle, free⟩ := (orderly.phase name).scaled taken
    rintro (⟨c, mem, rfl⟩ | held)
    · have own : c ∈ (s.view c.name).creators := Finset.mem_filter.mpr ⟨mem, rfl⟩
      rw [idle.creators] at own
      exact Finset.notMem_empty c own
    · exact free held
  · cases orderly.phase name with
    | parked _ _ _ inactive => exact inactive active
    | free _ _ not | inUse _ _ not => exact not suspended
    | starting _ starts | doomed _ _ starts => exact starts.suspended suspended
    | ending _ ends | ended _ ends => exact ends.suspended suspended
  · exact (Finset.card_le_card Finset.inter_subset_right).trans orderly.caused

theorem workers_exclusive_run :
    ∃ s : Manager Nat, Reachable step Careful (makeAsyncResumable true 1 .empty) s ∧
      s.activeWorkers = {7} ∧ s.suspendedWorkers = {5} ∧ s.Exclusive := by
  obtain ⟨s, reached, active, suspended⟩ := exists_of_run step
    Careful (makeAsyncResumable true 1 .empty : Manager Nat)
    (List.flatten [[.requestScaleUp 5, .requestScaleUp 7], starts 0 5 false,
      [.requestDelete 5], starts 1 7 false, ends 2 5 true, [.listWorkers]])
    (fun s => s.activeWorkers = {7} ∧ s.suspendedWorkers = {5}) (by decide +kernel)
  exact ⟨s, reached, active, suspended, workers_exclusive reached⟩

/-- A list that the provider made before the worker was resumed puts it back among the suspended
ones, from where it is handed out again. -/
theorem worker_handed_out_twice :
    ∃ s : Manager Nat, Reachable step HandedOut (makeAsyncResumable true 1 .empty) s ∧
      7 ∈ s.held ∧ ¬ s.Exclusive := by
  obtain ⟨s, reached, held, taken⟩ := exists_of_run step HandedOut
    (makeAsyncResumable true 1 .empty : Manager Nat)
    (List.flatten [[.requestScaleUp 7], starts 0 7 false, [.requestDelete 7], ends 1 7 true,
      [.listWorkers, .listRemoteWorkers ⟨2, ∅, ∅, none⟩, .requestScaleUp 7],
      starts 3 7 true, [.rebuild ⟨2, ∅, ∅, some (Remote.empty.suspendWorker 7)⟩]])
    (fun s => 7 ∈ s.held ∧ (step s (.requestScaleUp 7)).isSome = true) (by decide +kernel)
  obtain ⟨t, taken⟩ := Option.isSome_iff_exists.mp taken
  exact ⟨s, reached, held, fun exclusive => exclusive.fresh 7 t taken (.inr held)⟩

end Velda.Backends
