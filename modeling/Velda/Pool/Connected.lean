import Velda.Pool.Upkeep

/-! Workers that a pool holds for connected, with the channel they are told to shut down on.
No operation gives one up by itself: it takes a `MarkLost`, an event of the backend or a
promise of the backend under its name. -/
namespace Velda.Pool
open Lib List Option AutoScaledPool

variable {χ : Type}

def WorkerStatusCode.connected : WorkerStatusCode → Bool
  | .running | .idle | .notifyDeleting | .deleting => true
  | _ => false

def Oracle.Spares (name : String) (o : Oracle) : Prop := ∀ call ∈ o.scaleUps, call.2 ≠ some name

instance (name : String) (o : Oracle) : Decidable (o.Spares name) :=
  inferInstanceAs (Decidable (∀ call ∈ o.scaleUps, _))

/-- The operation does not say of the worker that it is lost, to come or not to come. -/
def Op.Spares (name : String) : Op χ → Prop
  | .markLost other _ o | .resourcePoolEvent other _ o => other ≠ name ∧ o.Spares name
  | .requestBatch _ _ nodes => ∀ l ∈ nodes, name ∉ l
  | .requestWorker o | .requestCancelled o | .markBusy _ _ o | .markIdle _ _ o
  | .markDeleting _ o | .notifyAgentAvailable _ _ _ _ o | .reconnect _ _ _ _ o
  | .deleteOneIdleWorker _ o | .retryScaleUp o | .readyForIdleMaintenance o
  | .updateConfig _ o => o.Spares name
  | .beginReconnect | .shutdown => True

instance (name : String) (op : Op χ) : Decidable (op.Spares name) := by
  induction op using Op.casesOn <;> unfold Op.Spares <;> infer_instance

def Op.notifies (name : String) : Op χ → Bool
  | .notifyAgentAvailable other _ _ _ _ => other = name
  | _ => false

variable {sent : List χ} {o : Oracle}

namespace AutoScaledPool

variable {p q : AutoScaledPool χ} {name : String} {c : Option χ}

def Connected (p : AutoScaledPool χ) (name : String) (c : Option χ) : Prop :=
  ∃ w, p.workers.lookup name = some w ∧ w.status.connected = true ∧ w.statusChan = c

section

variable (C : p.Connected name c)
include C

lemma Connected.of_workers (same : q.workers = p.workers) : q.Connected name c := by
  obtain ⟨w, found, status⟩ := C
  exact ⟨w, by rw [same, found], status⟩

lemma Connected.set_other (status : WorkerStatusCode) (slots : Int) (differs : name ≠ other) :
    (p.setWorkerStatusLocked other status slots).Connected name c := by
  obtain ⟨w, found, connected⟩ := C
  exact ⟨w, by rw [lookup_set, if_neg differs, found], connected⟩

lemma Connected.set (other : String) {status : WorkerStatusCode}
    (slots : Int) (connected : status.connected = true) :
    (p.setWorkerStatusLocked other status slots).Connected name c := by
  by_cases same : name = other
  · subst same
    obtain ⟨w, found, -, chan⟩ := C
    refine ⟨p.nextWorker name status slots, by rw [lookup_set, if_pos rfl], connected, ?_⟩
    simp [nextWorker, found, chan]
  · exact C.set_other status slots same

lemma Connected.setVersion (other : String) (version : BitVec 32) :
    (p.setVersion other version).Connected name c := by
  unfold AutoScaledPool.setVersion
  split
  · exact C
  · next w found =>
    obtain ⟨-, rfl⟩ := Keyed.lookup_eq_some_iff.mp found
    obtain ⟨v, here, connected⟩ := C
    by_cases same : name = w.name
    · subst same
      rw [found] at here
      cases here
      exact ⟨_, Keyed.lookup_insert_self p.workers { w with version := version }, connected⟩
    · exact ⟨v, (Keyed.lookup_insert_of_ne (a := { w with version := version }) same).trans here,
        connected⟩

lemma Connected.remove (differs : name ≠ other) :
    (p.removeWorkerLocked other).Connected name c := by
  obtain ⟨w, found, connected⟩ := C
  exact ⟨w, by simp [removeWorkerLocked, Keyed.lookup_erase, differs, found], connected⟩

lemma Connected.ne (away : ∀ w, p.workers.lookup other = some w → w.status.connected = false) :
    name ≠ other := by
  rintro rfl
  obtain ⟨w, found, connected, -⟩ := C
  rw [away w found] at connected
  cases connected

end

lemma Connected.tended (name : String) (c : Option χ) :
    Tended (name ≠ ·) fun p => p.Connected name c where
  other C same := C.of_workers (congrArg workers same :)
  await C := C.of_workers rfl
  promise now C differs :=
    Connected.set_other (C.of_workers rfl) .pending _ differs
  disconnect C found pending := by
    refine C.set_other _ 0 (C.ne fun v other => ?_)
    cases found.symm.trans other
    rw [pending]
    rfl
  notify other C := C.set other (-1) rfl
  version other cur C := C.setVersion other cur
  assign C missing :=
    (C.set_other _ _ (C.ne fun w found => by rw [missing] at found; cases found)).of_workers rfl
  meet now C missing :=
    (C.set_other _ _ (C.ne fun w found => by rw [missing] at found; cases found)).of_workers rfl
  remove other C inactive := by
    refine C.remove (C.ne fun w found => ?_)
    have status := inactive w found
    simp only [nonActiveStatus, mem_cons, not_mem_nil, or_false] at status
    rcases status with status | status | status | status <;> rw [status] <;> rfl

def listedPool (p : AutoScaledPool χ) (cur : BitVec 32) (now : Time) (listed : List String) :
    AutoScaledPool χ :=
  let p := listed.foldl (meet cur now) p
  (p.vanished cur).foldl removeWorkerLocked p

def deletions (p : AutoScaledPool χ) (cur : BitVec 32) (now : Time) (listed : List String) :
    List String :=
  (p.listedPool cur now listed).expired now fun _ => true

lemma promised_of_spares {op : Op χ} (spares : op.Spares name) :
    ∀ call ∈ op.oracle.scaleUps, ∀ other ∈ call.2, name ≠ other := by
  have spared : op.oracle.Spares name := by
    cases op with
    | markLost | resourcePoolEvent => exact spares.2
    | requestBatch | beginReconnect | shutdown => exact fun _ mem => absurd mem not_mem_nil
    | _ => exact spares
  intro call mem other given same
  exact spared call mem (given.trans (congrArg some same.symm))

lemma Connected.told (C : p.Connected name c) (spares : op.Spares name)
    (silent : op.notifies name = false) : (p.told op).Connected name c := by
  refine told_rule (I := (·.Connected name c)) (fun _ C => C.of_workers rfl)
    (fun _ _ C => C.of_workers rfl) (fun n sets C => ?_) ?_ ?_ (fun _ _ _ => C.of_workers rfl) C
  · cases op with
    | markBusy | markIdle | markDeleting => exact C.set _ n (by rw [sets.2]; rfl)
    | markLost => exact C.set_other _ n fun same => spares.1 (sets.1.trans same.symm)
    | requestBatch =>
      obtain ⟨⟨l, known, mem⟩, -⟩ := sets
      exact C.set_other _ n fun same => spares l known (same ▸ mem)
    | _ => cases sets
  · rintro other busy chan slots o rfl
    obtain ⟨w, found, connected⟩ := C
    have differs : name ≠ other := fun same => by simp [Op.notifies, same] at silent
    exact ⟨w, by simp only [lookup_notify, if_neg differs, found], connected⟩
  · rintro other now o rfl
    simp only [handleResourcePoolEvent]
    split
    · refine Connected.remove ?_ (Ne.symm spares.1)
      exact C.of_workers rfl
    · split <;> exact C.of_workers rfl

lemma Connected.apply {op : Op χ} (C : p.Connected name c) (spares : op.Spares name)
    (silent : op.notifies name = false) (h : p.apply op = some (q, sent)) : q.Connected name c :=
  (Connected.tended name c).apply (fun _ _ C => C.of_workers rfl) (promised_of_spares spares)
    (C.told spares silent) h

lemma connected_notify {busy : Bool} {chan : χ} {slots : Int} (spares : o.Spares name)
    (h : p.apply (.notifyAgentAvailable name busy chan slots o) = some (q, sent)) :
    q.Connected name (some chan) := by
  have promised := @promised_of_spares _ _ (.notifyAgentAvailable name busy chan slots o) spares
  refine (Connected.tended name _).apply (fun _ _ C => C.of_workers rfl) promised ?_ h
  refine ⟨_, by rw [told, lookup_notify, if_pos rfl], ?_, rfl⟩
  cases busy <;> rfl

end AutoScaledPool

end Velda.Pool
