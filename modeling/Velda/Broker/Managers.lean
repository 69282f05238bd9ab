import Velda.Lib.Run
import Velda.Posix.Tree

/-! The pool managers of schedulers. A scheduler whose name has a colon is made without one, and
gets that of its pool when the gang that it is for has been reserved. -/
namespace Velda.Broker.Managers
open Lib List Option Posix

/-- A scheduler is given by the name of the pool that its manager is for. -/
structure SchedulerSet where
  agents : Name → Option (Option Name) := fun _ => none
  /-- The schedule loops, each with its pool and the manager that it has read. -/
  loops : List (Name × Option Name) := []
  /-- The pools that are being reserved, each with the one that lends its manager. -/
  batches : List (Name × Name) := []
  /-- The pools that have been reserved. -/
  reserved : List Name := []
  /-- The calls of managers, each with the pool of the scheduler. -/
  calls : List (Name × Option Name) := []

inductive Action
  | getPool (pool : Name)
  | scheduleLoop (pool : Name)
  | requestWorker (i : Nat)
  | requestCancelled (i : Nat)
  | run (pool : Name)
  | tryBatchScheduling (pool taskId : Name)
  | requestBatch (i : Nat)
  | restart

variable {s s' : SchedulerSet} {pool name : Name}

namespace SchedulerSet

def getOrCreatePool (s : SchedulerSet) (pool : Name) : SchedulerSet :=
  match s.agents pool with
  | some _ => s
  | none => { s with
      agents := Function.update s.agents pool (some (if ':' ∈ pool then none else some pool)) }

def call (s : SchedulerSet) (scheduler : Name × Option Name) : SchedulerSet :=
  { s with calls := scheduler :: s.calls }

/-- `getPool` is for requests of sessions and queries, polled tasks and agents that connect. -/
def step (s : SchedulerSet) : Action → Option SchedulerSet
  | .getPool pool => some (s.getOrCreatePool pool)
  | .scheduleLoop pool => (s.agents pool).map fun m => { s with loops := (pool, m) :: s.loops }
  | .requestWorker i => (s.loops[i]?.filter (':' ∉ ·.1)).map s.call
  | .requestCancelled i => s.loops[i]?.map s.call
  | .run pool => (s.agents pool).map fun m => s.call (pool, m)
  | .tryBatchScheduling pool taskId =>
    let name := pool ++ ':' :: taskId
    let s := (s.getOrCreatePool pool).getOrCreatePool name
    some { s with batches := (pool, name) :: s.batches }
  | .requestBatch i => s.batches[i]?.bind fun (pool, name) => (s.agents pool).map fun m =>
    { s.call (pool, m) with
      agents := Function.update s.agents name (some m)
      batches := s.batches.eraseIdx i
      reserved := name :: s.reserved }
  | .restart => some { calls := s.calls }

/-- Names with a colon are left to gangs: sessions and agents have them when they have been
reserved, since the broker was started, and no gang has one as its pool. -/
def Reserved (s : SchedulerSet) : Action → Prop
  | .scheduleLoop pool | .run pool => ':' ∈ pool → pool ∈ s.reserved
  | .tryBatchScheduling pool _ => ':' ∉ pool
  | _ => True

instance (s : SchedulerSet) (act : Action) : Decidable (s.Reserved act) := by
  have known (pool : Name) : Decidable (pool ∈ s.reserved) :=
    decidable_of_iff (∃ name ∈ s.reserved, name = pool) exists_eq_right
  induction act using Action.casesOn <;> unfold Reserved <;> infer_instance

end SchedulerSet

def poolOf (name : Name) : Name := name.takeWhile (· ≠ ':')

lemma poolOf_plain (plain : ':' ∉ pool) : poolOf pool = pool :=
  takeWhile_eq_self_iff.mpr fun _ mem => decide_eq_true fun colon => plain (colon ▸ mem)

lemma poolOf_label (plain : ':' ∉ pool) (taskId : Name) :
    poolOf (pool ++ ':' :: taskId) = pool := by
  rw [poolOf, takeWhile_append_of_pos]
  · simp
  · exact fun _ mem => decide_eq_true fun colon => plain (colon ▸ mem)

structure Managed (s : SchedulerSet) : Prop where
  plain : ∀ pool, ':' ∉ pool → ∀ m ∈ s.agents pool, m = some pool
  reserved : ∀ pool ∈ s.reserved, s.agents pool = some (some (poolOf pool))
  loops : ∀ l ∈ s.loops, l.2 = some (poolOf l.1)
  batches : ∀ b ∈ s.batches, ':' ∉ b.1 ∧ ':' ∈ b.2 ∧ poolOf b.2 = b.1
  calls : ∀ c ∈ s.calls, c.2 = some (poolOf c.1)

namespace Managed

lemma getOrCreatePool (M : Managed s) (pool : Name) : Managed (s.getOrCreatePool pool) := by
  unfold SchedulerSet.getOrCreatePool
  split
  · exact M
  · next missing =>
    refine { M with plain := fun other plain m mem => ?_, reserved := fun other known => ?_ }
    · simp only [Function.update_apply] at mem
      split at mem
      · next same =>
        subst same
        cases mem
        exact if_neg plain
      · exact M.plain other plain m mem
    · have there := M.reserved other known
      refine (Function.update_of_ne (fun same => ?_) _ _).trans there
      rw [same, missing] at there
      cases there

lemma call {scheduler : Name × Option Name} (M : Managed s)
    (own : scheduler.2 = some (poolOf scheduler.1)) : Managed (s.call scheduler) :=
  { M with calls := forall_mem_cons.mpr ⟨own, M.calls⟩ }

lemma manager (M : Managed s) (known : ':' ∈ pool → pool ∈ s.reserved)
    (h : s.agents pool = some m) : m = some (poolOf pool) := by
  by_cases colon : ':' ∈ pool
  · rw [M.reserved pool (known colon)] at h
    exact (Option.some.inj h).symm
  · rw [poolOf_plain colon]
    exact M.plain pool colon m h

lemma requestBatch (M : Managed s) (h : s.step (.requestBatch i) = some s') : Managed s' := by
  obtain ⟨⟨pool, name⟩, found, rest⟩ := bind_eq_some_iff.mp h
  obtain ⟨m, lends, rfl⟩ := map_eq_some_iff.mp rest
  obtain ⟨plain, colon, own⟩ := M.batches _ (mem_of_getElem? found)
  obtain rfl : m = some pool := M.plain pool plain m lends
  refine ⟨fun other named m mem => ?_, fun other known => ?_, M.loops,
    fun b mem => M.batches b (mem_of_mem_eraseIdx mem),
    forall_mem_cons.mpr ⟨by rw [poolOf_plain plain], M.calls⟩⟩
  · have ne : other ≠ name := fun same => named (same ▸ colon)
    simp only [Function.update_of_ne ne] at mem
    exact M.plain other named m mem
  · by_cases same : other = name
    · simp [same, own]
    · simp only [Function.update_of_ne same]
      exact M.reserved other ((mem_cons.mp known).resolve_left same)

lemma step (M : Managed s) (known : s.Reserved act) (h : s.step act = some s') : Managed s' := by
  cases act with
  | getPool pool =>
    cases h
    exact M.getOrCreatePool pool
  | scheduleLoop pool =>
    obtain ⟨m, has, rfl⟩ := map_eq_some_iff.mp h
    exact { M with loops := forall_mem_cons.mpr ⟨M.manager known has, M.loops⟩ }
  | requestWorker i =>
    obtain ⟨l, found, rfl⟩ := map_eq_some_iff.mp h
    exact M.call (M.loops l (mem_of_getElem? (eq_some_of_filter_eq_some found)))
  | requestCancelled i =>
    obtain ⟨l, found, rfl⟩ := map_eq_some_iff.mp h
    exact M.call (M.loops l (mem_of_getElem? found))
  | run pool =>
    obtain ⟨m, has, rfl⟩ := map_eq_some_iff.mp h
    exact M.call (M.manager known has)
  | tryBatchScheduling pool taskId =>
    cases h
    have made := (M.getOrCreatePool pool).getOrCreatePool (pool ++ ':' :: taskId)
    exact { made with
      batches := forall_mem_cons.mpr ⟨⟨known, by simp, poolOf_label known taskId⟩, made.batches⟩ }
  | requestBatch i => exact M.requestBatch h
  | restart =>
    cases h
    exact ⟨by simp, by simp, by simp, by simp, M.calls⟩

end Managed

/-- Every call of the manager of a scheduler has one, and it is the one of the pool. -/
theorem managers_present
    (h : Reachable SchedulerSet.step SchedulerSet.Reserved {} s) :
    ∀ c ∈ s.calls, c.2 = some (poolOf c.1) :=
  (h.invariant (I := Managed) ⟨by simp, by simp, by simp, by simp, by simp⟩
    fun _ _ _ M known taken => M.step known taken).calls

/-- A session of a gang is cancelled. -/
theorem managers_present_gang : ∃ s : SchedulerSet,
    (['p', ':', 't'], some ['p']) ∈ s.calls ∧ ∀ c ∈ s.calls, c.2 = some (poolOf c.1) := by
  obtain ⟨s, reached, called⟩ := exists_of_run SchedulerSet.step
    SchedulerSet.Reserved {} [.tryBatchScheduling ['p'] ['t'], .requestBatch 0,
      .scheduleLoop ['p', ':', 't'], .requestCancelled 0]
    (fun s => (['p', ':', 't'], some ['p']) ∈ s.calls) (by decide +kernel)
  exact ⟨s, called, managers_present reached⟩

/-- A session is cancelled whose request names a pool with a colon, an agent connects with such a
pool, and a broker is restarted between the reservation of a gang and one of its sessions. -/
theorem manager_missing :
    (∃ s, Reachable SchedulerSet.step Any {} s ∧ s.calls = [(['p', ':'], none)] ∧ s.loops ≠ []) ∧
    (∃ s, Reachable SchedulerSet.step Any {} s ∧ s.calls = [(['p', ':'], none)] ∧ s.loops = []) ∧
    ∃ s, Reachable SchedulerSet.step Any {} s ∧
      s.calls = [(['p', ':', 't'], none), (['p'], some ['p'])] := by
  refine ⟨?_, ?_, ?_⟩
  · exact exists_of_run _ _ _ [.getPool ['p', ':'], .scheduleLoop ['p', ':'],
      .requestCancelled 0] _ (by decide +kernel)
  · exact exists_of_run _ _ _ [.getPool ['p', ':'], .run ['p', ':']] _
      (by decide +kernel)
  · exact exists_of_run _ _ _ [.tryBatchScheduling ['p'] ['t'], .requestBatch 0,
      .restart, .getPool ['p', ':', 't'], .scheduleLoop ['p', ':', 't'], .requestCancelled 0] _
      (by decide +kernel)

end Velda.Broker.Managers
