import Velda.Lib.Run
import Velda.Pool.Upkeep

/-! The idle slots of a pool. `idleSlots` is kept up to date by every change of a worker
and of the number of workers without a name; it should be the sum that these add up to. -/
namespace Velda.Pool
open Lib Keyed AutoScaledPool

variable {χ : Type}

def Worker.counted (w : Worker χ) : Int :=
  if w.status = .notifyDeleting then 0 else w.availableSlot

variable {p : AutoScaledPool χ} {name : String}

namespace AutoScaledPool

def Exact (p : AutoScaledPool χ) : Prop :=
  p.idleSlots = p.workers.total Worker.counted + p.pendingUnknownWorkers * p.defaultSlotsPerAgent

lemma total_counted (p : AutoScaledPool χ) : p.workers.total Worker.counted =
      ((p.workers.entries.filter (·.status ≠ .notifyDeleting)).map Worker.availableSlot).sum := by
  unfold total
  induction p.workers.entries with
  | nil => rfl
  | cons w rest ih =>
    by_cases told : w.status = .notifyDeleting
    · rw [List.filter_cons_of_neg (by simpa using told), ← ih]
      simp [Worker.counted, told]
    · rw [List.filter_cons_of_pos (by simpa using told)]
      simp [Worker.counted, told, ih]

lemma counted_lookup (p : AutoScaledPool χ) (name : String) :
    ((p.workers.lookup name).map Worker.counted).getD 0 =
      if p.workerStatus name = .notifyDeleting then 0
      else ((p.workers.lookup name).map Worker.availableSlot).getD 0 := by
  unfold workerStatus
  cases p.workers.lookup name with
  | none => rfl
  | some w => rfl

section

variable (E : p.Exact)
include E

lemma Exact.set (name : String) (status : WorkerStatusCode) (slots : Int) :
    (p.setWorkerStatusLocked name status slots).Exact := by
  have before := p.counted_lookup name
  have sum := p.workers.total_insert Worker.counted (p.nextWorker name status slots)
  unfold Exact at E ⊢
  unfold setWorkerStatusLocked
  simp only
  have next : (p.nextWorker name status slots).counted =
      if status = .notifyDeleting then 0 else (p.nextWorker name status slots).availableSlot := rfl
  rw [show (p.nextWorker name status slots).name = name from rfl] at sum
  omega

lemma Exact.remove (name : String)
    (ok : ∀ w, p.workers.lookup name = some w → w.status = .notifyDeleting → w.availableSlot = 0) :
    (p.removeWorkerLocked name).Exact := by
  have sum := p.workers.total_erase Worker.counted name
  have same : ((p.workers.lookup name).map Worker.counted).getD 0 =
      ((p.workers.lookup name).map Worker.availableSlot).getD 0 := by
    cases found : p.workers.lookup name with
    | none => rfl
    | some w =>
      by_cases told : w.status = .notifyDeleting
      · simp [Worker.counted, ok w found told]
      · simp [Worker.counted, told]
  unfold Exact at E ⊢
  unfold removeWorkerLocked
  simp only
  omega

lemma Exact.replace (found : p.workers.lookup v.name = some w) (same : v.counted = w.counted) :
    Exact { p with workers := p.workers.insert v } := by
  have sum := p.workers.total_insert Worker.counted v
  rw [found] at sum
  unfold Exact at E ⊢
  rw [sum, same, E]
  simp

lemma Exact.setVersion (name : String) (version : BitVec 32) :
    (p.setVersion name version).Exact := by
  unfold AutoScaledPool.setVersion
  cases found : p.workers.lookup name with
  | none => exact E
  | some w =>
    obtain ⟨-, rfl⟩ := lookup_eq_some_iff.mp found
    exact E.replace found rfl

lemma Exact.claimUnknown : p.claimUnknown.Exact := by
  unfold Exact at E ⊢
  simp only [AutoScaledPool.claimUnknown]
  rw [E, Int.sub_mul]
  omega

lemma Exact.upkept (U : Upkept p q) : q.Exact := by
  induction U with
  | same => exact E
  | other _ workers _ slots unknown default ih =>
    unfold Exact at ih ⊢
    rw [workers, slots, unknown, default]
    exact ih
  | set name slots _ _ _ ih => exact ih.set name _ slots
  | remove name _ ok ih => exact ih.remove name fun w found told => absurd told (ok w found)
  | setVersion name version _ ih => exact ih.setVersion name version
  | await _ ih =>
    unfold Exact at ih ⊢
    simp only
    rw [ih, Int.add_mul]
    omega
  | claimUnknown _ ih => exact ih.claimUnknown

lemma Exact.setDetail {slots : Int}
    (ok : ∀ w, p.workers.lookup name = some w → w.availableSlot = slots) :
    (p.setDetail name chan slots).Exact := by
  unfold AutoScaledPool.setDetail
  split
  · exact E
  · next w found =>
    obtain ⟨-, rfl⟩ := lookup_eq_some_iff.mp found
    refine E.replace found ?_
    simp only [Worker.counted, ok w found]

lemma Exact.notify {busy : Bool} {slots : Int}
    (ok : 0 ≤ slots ∨ ((p.workers.lookup name).map Worker.availableSlot).getD 0 = slots) :
    (p.notifyAgentAvailable name busy chan slots).Exact := by
  unfold notifyAgentAvailable
  simp only
  generalize (if busy then WorkerStatusCode.running else .idle) = status
  have set : (p.clearAllocationErrorLocked.setWorkerStatusLocked name status slots).Exact :=
    Exact.set E name status slots
  have kept : ∀ w, (p.clearAllocationErrorLocked.setWorkerStatusLocked name status
      slots).workers.lookup name = some w → w.availableSlot = slots := by
    intro w found
    have self : (p.clearAllocationErrorLocked.setWorkerStatusLocked name status
        slots).workers.lookup name =
        some (p.clearAllocationErrorLocked.nextWorker name status slots) :=
      lookup_insert_self _ _
    rw [self] at found
    cases found
    unfold nextWorker clearAllocationErrorLocked
    split
    · exact ok.resolve_left (by omega)
    · rfl
  split
  · exact set.claimUnknown.setDetail kept
  · exact set.setDetail kept

end

end AutoScaledPool

/-- The steps that keep the count: a worker is not told of with fewer than no slots, the backend
does not fail a worker that was told to shut down, and the slots of a worker without a name do not
change while one is awaited. -/
def Tallied (p : AutoScaledPool χ) : Op χ → Prop
  | .notifyAgentAvailable name _ _ slots _ => 0 ≤ slots ∨
      ((p.workers.lookup name).map Worker.availableSlot).getD 0 = slots
  | .resourcePoolEvent name _ _ => ∀ w ∈ p.workers.lookup name, w.status = .notifyDeleting →
      w.availableSlot = 0
  | .updateConfig c _ => p.pendingUnknownWorkers = 0 ∨ c.slots = p.defaultSlotsPerAgent
  | _ => True

instance (p : AutoScaledPool χ) (op : Op χ) : Decidable (Tallied p op) := by
  induction op using Op.casesOn <;> unfold Tallied <;> infer_instance

namespace AutoScaledPool

lemma Exact.configure (E : p.Exact)
    (ok : p.pendingUnknownWorkers = 0 ∨ c.slots = p.defaultSlotsPerAgent) :
    (p.configure c).Exact := by
  unfold Exact at E ⊢
  simp only [AutoScaledPool.configure]
  rcases ok with none | same
  · rw [E, none]
    simp
  · rw [E, same]

lemma Exact.event (E : p.Exact)
    (ok : ∀ w ∈ p.workers.lookup name, w.status = .notifyDeleting → w.availableSlot = 0) :
    (p.handleResourcePoolEvent name now).Exact := by
  have marked : (p.markAllocationErrorLocked now).Exact := E
  unfold handleResourcePoolEvent
  simp only
  split
  · exact marked.remove name ok
  · split
    · exact marked.claimUnknown
    · exact marked

lemma Exact.told (E : p.Exact) (ok : Tallied p op) : (p.told op).Exact := by
  refine told_rule (fun _ => id) (fun _ _ => id) (fun n _ E => E.set _ _ n) ?_ ?_ ?_ E
  · rintro name busy chan slots o rfl
    exact E.notify ok
  · rintro name now o rfl
    exact E.event ok
  · rintro c o rfl
    exact E.configure ok

def initial : AutoScaledPool χ := {}

/-- The idle slots are those of the workers that were not told to shut down and of the workers
without a name. -/
theorem idle_slots_counted {p : AutoScaledPool χ} (h : Reachable step Tallied initial p) :
    p.idleSlots =
      ((p.workers.entries.filter (·.status ≠ .notifyDeleting)).map Worker.availableSlot).sum +
        p.pendingUnknownWorkers * p.defaultSlotsPerAgent := by
  have exact : p.Exact := by
    refine Reachable.invariant (I := Exact) ?_ (fun p op q E ok taken => ?_) h
    · simp [Exact, initial, total, empty]
    · obtain ⟨⟨r, sent⟩, applied, rfl⟩ := Option.map_eq_some_iff.mp taken
      exact (E.told ok).upkept (upkept_apply applied)
  rw [← total_counted]
  exact exact

def config (minIdle slots : Int) : AutoScaledPoolConfig where
  backend := some ⟨0, false⟩
  minIdle := minIdle
  maxSize := 5
  defaultSlotsPerAgent := slots

theorem idle_slots_counted_awaited :
    ∃ p : AutoScaledPool Nat, Reachable step Tallied initial p ∧ p.pendingUnknownWorkers = 2 ∧
      p.idleSlots = 4 ∧ p.idleSlots =
        ((p.workers.entries.filter (·.status ≠ .notifyDeleting)).map Worker.availableSlot).sum +
          p.pendingUnknownWorkers * p.defaultSlotsPerAgent := by
  obtain ⟨p, reached, awaited, slots⟩ :=
    exists_of_run (@step Nat) Tallied initial
      [.updateConfig (config 3 2) {},
        .retryScaleUp { scaleUps := [(1, some ""), (1, some "")] },
        .notifyAgentAvailable "a" false 0 2 {}, .requestWorker {},
        .markBusy "a" 0 { scaleUps := [(2, some "")] }]
      (fun p => p.pendingUnknownWorkers = 2 ∧ p.idleSlots = 4) (by decide +kernel)
  exact ⟨p, reached, awaited, slots, idle_slots_counted reached⟩

/-- A worker without a name is awaited when the number of slots is changed; a worker reports fewer
than no slots; and a worker that was told to shut down fails. -/
theorem idle_slots_miscounted :
    (∃ p : AutoScaledPool Nat, Reachable step Any initial p ∧ p.workers.entries = [] ∧
      p.pendingUnknownWorkers = 1 ∧ p.defaultSlotsPerAgent = 2 ∧ p.idleSlots = 1) ∧
    (∃ p : AutoScaledPool Nat, Reachable step Any initial p ∧ p.pendingUnknownWorkers = 0 ∧
      p.workers.entries.map (fun w => (w.status, w.availableSlot)) = [(.running, -1)] ∧
      p.idleSlots = 0) ∧
    ∃ p : AutoScaledPool Nat, Reachable step Any initial p ∧ p.workers.entries = [] ∧
      p.pendingUnknownWorkers = 0 ∧ p.idleSlots = -1 := by
  refine ⟨?_, ?_, ?_⟩
  · exact exists_of_run _ _ _
      [.updateConfig (config 1 1) {}, .retryScaleUp { scaleUps := [(1, some "")] },
        .updateConfig (config 1 2) {}] _ (by decide +kernel)
  · exact exists_of_run _ _ _
      [.updateConfig (config 0 1) {}, .notifyAgentAvailable "a" true 0 (-1) {}] _
      (by decide +kernel)
  · exact exists_of_run _ _ _
      [.updateConfig (config 0 1) {}, .notifyAgentAvailable "a" false 0 1 { picks := ["a"] },
        .resourcePoolEvent "a" 1 { scaleUps := [(1, none)] }] _ (by decide +kernel)

end AutoScaledPool

end Velda.Pool
