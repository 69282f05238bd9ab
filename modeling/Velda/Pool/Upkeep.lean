import Velda.Pool.Operations

/-! An operation of a pool first takes note of what it is told, and then looks after the
pool: it asks for workers, gives up idle ones, and drops those that the backend has
lost. The second part never makes a worker idle or running. -/
namespace Velda.Pool
open Lib Keyed AutoScaledPool

variable {χ : Type}

inductive Upkept (p : AutoScaledPool χ) : AutoScaledPool χ → Prop
  | same : Upkept p p
  | other {q r : AutoScaledPool χ} : Upkept p q → r.workers = q.workers →
      r.pendingSessions = q.pendingSessions → r.idleSlots = q.idleSlots →
      r.pendingUnknownWorkers = q.pendingUnknownWorkers →
      r.defaultSlotsPerAgent = q.defaultSlotsPerAgent → Upkept p r
  | set {q : AutoScaledPool χ} (name : String) {status : WorkerStatusCode} (slots : Int) :
      Upkept p q → status ≠ .idle → status ≠ .running →
      Upkept p (q.setWorkerStatusLocked name status slots)
  | remove {q : AutoScaledPool χ} (name : String) : Upkept p q →
      (∀ w, q.workers.lookup name = some w → w.status ≠ .notifyDeleting) →
      Upkept p (q.removeWorkerLocked name)
  | setVersion {q : AutoScaledPool χ} (name : String) (version : BitVec 32) : Upkept p q →
      Upkept p (q.setVersion name version)
  | await {q : AutoScaledPool χ} : Upkept p q → Upkept p { q with
      pendingUnknownWorkers := q.pendingUnknownWorkers + 1
      idleSlots := q.idleSlots + q.defaultSlotsPerAgent }
  | claimUnknown {q : AutoScaledPool χ} : Upkept p q → Upkept p q.claimUnknown

variable {sent : List χ} {o : Oracle} {n : Int}

namespace AutoScaledPool

variable {p q : AutoScaledPool χ}

/-- The pool without the fields that looking after it keeps for itself. -/
def core (p : AutoScaledPool χ) : AutoScaledPool χ :=
  { p with
    killingIdle := false
    readyForIdleMaintenance := false
    done := false
    nextScaleUpAllowedAt := none
    lastScaleUpAttemptAt := none
    lastAllocationErrorAt := none }

lemma status_of_filter {f : Worker χ → Bool} {name : String}
    (mem : name ∈ (p.workers.entries.filter f).map Worker.name)
    (found : p.workers.lookup name = some w) : f w = true := by
  obtain ⟨v, kept, rfl⟩ := List.mem_map.mp mem
  obtain ⟨inside, holds⟩ := List.mem_filter.mp kept
  obtain ⟨here, same⟩ := lookup_eq_some_iff.mp found
  rw [eq_of_key_eq here inside same]
  exact holds

end AutoScaledPool

/-- A predicate that every change of looking after a pool keeps, where the backend gives new
workers only names that are `promised`. -/
structure Tended (promised : String → Prop) (I : AutoScaledPool χ → Prop) : Prop where
  other {p q : AutoScaledPool χ} : I p → q.core = p.core → I q
  await {p : AutoScaledPool χ} : I p → I { p with
    pendingUnknownWorkers := p.pendingUnknownWorkers + 1
    idleSlots := p.idleSlots + p.defaultSlotsPerAgent }
  promise {p : AutoScaledPool χ} {name : String} (now : Time) : I p → promised name →
    I ((p.see name now).setWorkerStatusLocked name .pending p.defaultSlotsPerAgent)
  disconnect {p : AutoScaledPool χ} {w : Worker χ} : I p → p.workers.lookup w.name = some w →
    w.status = .pending → I (p.setWorkerStatusLocked w.name .disconnected 0)
  notify {p : AutoScaledPool χ} (name : String) : I p →
    I (p.setWorkerStatusLocked name .notifyDeleting (-1))
  version {p : AutoScaledPool χ} (name : String) (cur : BitVec 32) : I p → I (p.setVersion name cur)
  assign {p : AutoScaledPool χ} {name : String} : I p → p.workers.lookup name = none →
    I (p.setWorkerStatusLocked name .pending p.defaultSlotsPerAgent).claimUnknown
  meet {p : AutoScaledPool χ} {name : String} (now : Time) : I p → p.workers.lookup name = none →
    I ((p.setWorkerStatusLocked name .unknown 0).see name now)
  remove {p : AutoScaledPool χ} (name : String) : I p →
    (∀ w, p.workers.lookup name = some w → w.status ∈ nonActiveStatus) →
    I (p.removeWorkerLocked name)

namespace Tended

variable {p q : AutoScaledPool χ} {promised : String → Prop} {I : AutoScaledPool χ → Prop}
  (T : Tended promised I)
include T

lemma maybeReset (now : Time) (holds : I p) : I (p.maybeResetAllocationErrorLocked now) := by
  unfold maybeResetAllocationErrorLocked
  split
  · exact holds
  · split
    · exact holds
    · split
      · exact T.other holds rfl
      · exact holds

lemma scaleUp {calls : List (Time × Option String)}
    (ok : ∀ call ∈ calls, ∀ name ∈ call.2, promised name) (holds : I p)
    (h : scaleUp calls p = some q) : I q := by
  induction calls generalizing p with
  | nil =>
    unfold AutoScaledPool.scaleUp at h
    split at h
    · cases h
    · cases h
      exact holds
  | cons call rest ih =>
    obtain ⟨now, answer⟩ := call
    unfold AutoScaledPool.scaleUp at h
    split at h
    · simp only at h
      have reset := T.maybeReset now holds
      generalize p.maybeResetAllocationErrorLocked now = u at reset h
      split at h
      · cases h
        exact reset
      · have asked : I { u with lastScaleUpAttemptAt := some now } := T.other reset rfl
        cases answer with
        | none =>
          cases h
          exact T.other asked rfl
        | some name =>
          refine ih (fun call mem => ok call (List.mem_cons_of_mem _ mem)) ?_ h
          unfold addPending
          split
          · exact T.await asked
          · exact T.promise now asked (ok _ List.mem_cons_self name rfl)
    · cases h
      exact holds

lemma deleteOne (holds : I p) (h : p.deleteOneWorkerLocked pick = some (q, sent, deleted)) :
    I q := by
  unfold deleteOneWorkerLocked at h
  simp only at h
  split at h
  · cases h
    exact holds
  · split at h
    · split at h
      · next pending =>
        cases h
        obtain ⟨w, mem, named⟩ := List.any_eq_true.mp pending
        obtain rfl : w.name = pick := by simpa using named
        obtain ⟨listed, status⟩ := List.mem_filter.mp mem
        exact T.disconnect holds (lookup_eq_some_iff.mpr ⟨listed, rfl⟩) (by simpa using status)
      · cases h
    · split at h
      · split at h
        · cases h
          exact holds
        · cases h
      · split at h
        · cases h
          exact holds
        · obtain ⟨chan, -, same⟩ := Option.map_eq_some_iff.mp h
          cases same
          exact T.notify pick holds

lemma scaleDown (holds : I p) (h : scaleDown picks p = some (q, sent)) : I q := by
  induction picks generalizing p sent with
  | nil =>
    unfold AutoScaledPool.scaleDown at h
    split at h
    · cases h
    · cases h
      exact holds
  | cons pick rest ih =>
    unfold AutoScaledPool.scaleDown at h
    split at h
    · simp only at h
      split at h
      · cases h
      · next deleted =>
        cases h
        exact T.deleteOne holds deleted
      · next u told deleted =>
        obtain ⟨⟨v, more⟩, rest', same⟩ := Option.map_eq_some_iff.mp h
        cases same
        exact ih (p := { u with killingIdle := false }) (T.other (T.deleteOne holds deleted) rfl)
          rest'
    · cases h
      exact holds

lemma maintain (ok : ∀ call ∈ o.scaleUps, ∀ name ∈ call.2, promised name) (holds : I p)
    (h : p.maintainIdleWorkers o = some (q, sent)) : I q := by
  unfold maintainIdleWorkers at h
  have ready : I (if p.backend.isSome ∧ p.workersByStatus .unknown = [] then
      { p with readyForIdleMaintenance := true } else p) := by
    split
    · exact T.other holds rfl
    · exact holds
  simp only at h
  generalize (if p.backend.isSome ∧ p.workersByStatus .unknown = [] then
    { p with readyForIdleMaintenance := true } else p) = u at ready h
  split at h
  · cases h
    exact ready
  · obtain ⟨up, grown, rest⟩ := Option.bind_eq_some_iff.mp h
    obtain ⟨⟨down, told⟩, shrunk, same⟩ := Option.map_eq_some_iff.mp rest
    cases same
    exact T.other (T.scaleDown (T.scaleUp ok ready grown) shrunk) rfl

lemma meets (cur : BitVec 32) (now : Time) (listed : List String) (holds : I p) :
    I (listed.foldl (AutoScaledPool.meet cur now) p) := by
  induction listed generalizing p with
  | nil => exact holds
  | cons name rest ih =>
    refine ih ?_
    unfold AutoScaledPool.meet
    split
    · exact T.version name cur holds
    · next missing =>
      split
      · exact T.version name cur (T.assign holds missing)
      · exact T.meet now holds missing

lemma removes {names : List String} (holds : I p) (ok : ∀ name ∈ names, ∀ w,
    p.workers.lookup name = some w → w.status ∈ nonActiveStatus) :
    I (names.foldl removeWorkerLocked p) := by
  induction names generalizing p with
  | nil => exact holds
  | cons name rest ih =>
    refine ih (T.remove name holds (ok name List.mem_cons_self)) fun other mem w found => ?_
    simp only [removeWorkerLocked, lookup_erase] at found
    split at found
    · cases found
    · exact ok other (List.mem_cons_of_mem _ mem) w found

lemma reconnect {deleted : String → Bool} (ok : ∀ call ∈ o.scaleUps, ∀ name ∈ call.2, promised name)
    (holds : I p) (h : p.reconnect o cur now listed deleted = some (q, sent)) : I q := by
  have met := T.meets cur now listed holds
  unfold AutoScaledPool.reconnect at h
  generalize listed.foldl (AutoScaledPool.meet cur now) p = u at met h
  have rid : I ((u.vanished cur).foldl removeWorkerLocked u) :=
    T.removes met fun name mem w found => (of_decide_eq_true (status_of_filter mem found)).1
  refine T.maintain ok (T.removes rid fun name mem w found => ?_) h
  unfold expired at mem
  split at mem
  · obtain ⟨status, -⟩ := of_decide_eq_true (status_of_filter mem found)
    rcases status with status | status <;> rw [status] <;> decide
  · cases mem

end Tended

def Op.oracle : Op χ → Oracle
  | .requestWorker o | .requestCancelled o | .markBusy _ _ o | .markIdle _ _ o | .markLost _ _ o
  | .markDeleting _ o | .notifyAgentAvailable _ _ _ _ o | .reconnect _ _ _ _ o
  | .resourcePoolEvent _ _ o | .deleteOneIdleWorker _ o | .retryScaleUp o
  | .readyForIdleMaintenance o | .updateConfig _ o => o
  | .requestBatch _ _ _ | .beginReconnect | .shutdown => {}

namespace AutoScaledPool

variable {p q : AutoScaledPool χ}

def told (p : AutoScaledPool χ) : Op χ → AutoScaledPool χ
  | .requestWorker _ => { p with pendingSessions := p.pendingSessions + 1 }
  | .requestCancelled _ => { p with pendingSessions := p.pendingSessions - 1 }
  | .markBusy name slots _ =>
    { p with pendingSessions := p.pendingSessions - 1 }.setWorkerStatusLocked name .running slots
  | .markIdle name slots _ => p.setWorkerStatusLocked name .idle slots
  | .markLost name now _ => p.markLost name now
  | .markDeleting name _ => p.setWorkerStatusLocked name .deleting 0
  | .notifyAgentAvailable name busy chan slots _ => p.notifyAgentAvailable name busy chan slots
  | .requestBatch count now nodes =>
    if p.batch ∧ p.backend.any Backend.batched then
      (nodes.map (p.requestBatch count now)).getD p
    else p
  | .resourcePoolEvent name now _ => p.handleResourcePoolEvent name now
  | .updateConfig c _ => p.configure c
  | _ => p

end AutoScaledPool

def Op.sets (name : String) (status : WorkerStatusCode) : Op χ → Prop
  | .markBusy other _ _ => other = name ∧ status = .running
  | .markIdle other _ _ => other = name ∧ status = .idle
  | .markLost other _ _ => other = name ∧ status ∈ [.pending, .disconnected, .lost]
  | .markDeleting other _ => other = name ∧ status = .deleting
  | .requestBatch _ _ nodes => (∃ l ∈ nodes, name ∈ l) ∧ status = .pending
  | _ => False

/-- What a pool keeps when it is told something, if it keeps it when a worker is set. -/
lemma AutoScaledPool.told_rule {I : AutoScaledPool χ → Prop}
    (count : ∀ {p} n, I p → I { p with pendingSessions := n })
    (see : ∀ {p} name now, I p → I (p.see name now))
    (set : ∀ {p name status} slots, op.sets name status → I p →
      I (p.setWorkerStatusLocked name status slots))
    (notify : ∀ name busy chan slots o, op = .notifyAgentAvailable name busy chan slots o →
      I (p.notifyAgentAvailable name busy chan slots))
    (event : ∀ name now o, op = .resourcePoolEvent name now o →
      I (p.handleResourcePoolEvent name now))
    (config : ∀ c o, op = .updateConfig c o → I (p.configure c)) (holds : I p) : I (p.told op) := by
  cases op with
  | requestWorker | requestCancelled => exact count _ holds
  | markBusy name slots => exact set slots ⟨rfl, rfl⟩ (count _ holds)
  | markIdle name slots => exact set slots ⟨rfl, rfl⟩ holds
  | markLost name now =>
    have seen := see name now holds
    simp only [told, markLost]
    split
    · exact seen
    · exact set (-1) ⟨rfl, by decide⟩ seen
    · exact set 0 ⟨rfl, by decide⟩ seen
    · exact set 0 ⟨rfl, by decide⟩ seen
  | markDeleting name => exact set 0 ⟨rfl, rfl⟩ holds
  | notifyAgentAvailable name busy chan slots o => exact notify name busy chan slots o rfl
  | requestBatch n now nodes =>
    simp only [told]
    split
    · cases nodes with
      | none => exact holds
      | some nodes =>
        exact nodes.foldlRecOn _ (count _ holds) fun q held name mem =>
          set _ ⟨⟨nodes, rfl, mem⟩, rfl⟩ (see name now held)
    · exact holds
  | resourcePoolEvent name now o => exact event name now o rfl
  | updateConfig c o => exact config c o rfl
  | _ => exact holds

/-- What an operation keeps besides what it is told, if that does not depend on the listings that
are under way. -/
lemma Tended.apply {promised : String → Prop} {I : AutoScaledPool χ → Prop} (T : Tended promised I)
    (sync : ∀ v l, I p → I { p with currentSyncVersion := v, syncs := l })
    (ok : ∀ call ∈ op.oracle.scaleUps, ∀ name ∈ call.2, promised name) (holds : I (p.told op))
    (h : p.apply op = some (q, sent)) : I q := by
  cases op with
  | markIdle name slots =>
    simp only [AutoScaledPool.apply] at h
    split at h
    · exact T.maintain ok holds h
    · cases h
      exact holds
  | markDeleting name =>
    simp only [AutoScaledPool.apply] at h
    split at h
    · cases h
    · exact T.maintain ok holds h
  | requestBatch count now nodes =>
    simp only [AutoScaledPool.apply] at h
    simp only [told] at holds
    split at h
    · next batched =>
      cases h
      rwa [if_pos batched] at holds
    · next single =>
      cases h
      rwa [if_neg single] at holds
  | beginReconnect =>
    simp only [AutoScaledPool.apply] at h
    split at h
    · cases h
      exact holds
    · cases h
      exact sync _ _ holds
  | reconnect i =>
    simp only [AutoScaledPool.apply] at h
    split at h
    · cases h
    · have taken : I { p with syncs := p.syncs.eraseIdx i } := sync p.currentSyncVersion _ holds
      split at h
      · exact T.reconnect ok taken h
      · cases h
        exact taken
  | deleteOneIdleWorker =>
    simp only [AutoScaledPool.apply] at h
    have stopped : I { p with killingIdle := false } := T.other holds rfl
    split at h
    · split at h
      · cases h
      · next deleted =>
        cases h
        exact T.deleteOne stopped deleted
      · next r some deleted =>
        obtain ⟨⟨v, more⟩, kept, same⟩ := Option.map_eq_some_iff.mp h
        cases same
        exact T.maintain ok (T.deleteOne stopped deleted) kept
    · cases h
      exact stopped
  | readyForIdleMaintenance =>
    simp only [AutoScaledPool.apply] at h
    split at h
    · cases h
      exact holds
    · have ready : I { p with readyForIdleMaintenance := true } := T.other holds rfl
      exact T.maintain ok ready h
  | updateConfig =>
    simp only [AutoScaledPool.apply] at h
    split at h
    · exact T.maintain ok holds h
    · cases h
      exact holds
  | shutdown =>
    cases h
    exact T.other holds rfl
  | _ => exact T.maintain ok holds h

lemma Upkept.tended (p : AutoScaledPool χ) : Tended (fun _ => True) (Upkept p) where
  other U same := .other U (congrArg workers same :) (congrArg pendingSessions same :)
    (congrArg idleSlots same :) (congrArg pendingUnknownWorkers same :)
    (congrArg defaultSlotsPerAgent same :)
  await U := .await U
  promise _ U _ := .set _ _ (.other U rfl rfl rfl rfl rfl) (by decide) (by decide)
  disconnect U _ _ := .set _ 0 U (by decide) (by decide)
  notify name U := .set name (-1) U (by decide) (by decide)
  version name cur U := .setVersion name cur U
  assign U _ := .claimUnknown (.set _ _ U (by decide) (by decide))
  meet _ U _ := .other (.set _ 0 U (by decide) (by decide)) rfl rfl rfl rfl rfl
  remove name U ok := .remove name U fun w found told => by
    have inactive := ok w found
    rw [told] at inactive
    exact absurd inactive (by decide)

namespace AutoScaledPool

variable {p q : AutoScaledPool χ}

lemma upkept_apply (h : p.apply op = some (q, sent)) : Upkept (p.told op) q :=
  (Upkept.tended (p.told op)).apply (fun _ _ U => .other U rfl rfl rfl rfl rfl)
    (fun _ _ _ _ => trivial) .same h

lemma lookup_set (p : AutoScaledPool χ) (name other : String) (status : WorkerStatusCode)
    (slots : Int) : (p.setWorkerStatusLocked name status slots).workers.lookup other =
      if other = name then some (p.nextWorker name status slots) else p.workers.lookup other := by
  split
  · next same =>
    subst same
    exact lookup_insert_self _ _
  · next differs => exact lookup_insert_of_ne differs

lemma lookup_setVersion {name other : String}
    (h : (p.setVersion name version).workers.lookup other = some w) :
    ∃ v, p.workers.lookup other = some v ∧ v.status = w.status ∧
      v.availableSlot = w.availableSlot ∧ v.statusChan = w.statusChan := by
  unfold setVersion at h
  split at h
  · exact ⟨w, h, rfl, rfl, rfl⟩
  · next v found =>
    obtain ⟨-, named⟩ := lookup_eq_some_iff.mp found
    by_cases same : other = name
    · subst same
      subst named
      have self := lookup_insert_self p.workers { v with version := version }
      cases self.symm.trans h
      exact ⟨v, found, rfl, rfl, rfl⟩
    · rw [lookup_insert_of_ne (by simpa [named] using same)] at h
      exact ⟨w, h, rfl, rfl, rfl⟩

/-- A worker that the pool holds for idle or running has so many slots, and `free` if it is held
for idle. -/
def Shows (p : AutoScaledPool χ) (name : String) (slots : Int) (free : Prop) : Prop :=
  ∀ w, p.workers.lookup name = some w → w.status = .idle ∨ w.status = .running →
    w.availableSlot = slots ∧ (w.status = .idle → free)

variable {name : String} {slots : Int} {free : Prop}

lemma Shows.of_lookup (S : p.Shows name slots free)
    (same : q.workers.lookup name = p.workers.lookup name) : q.Shows name slots free := by
  intro w found
  exact S w (same ▸ found)

lemma Shows.set_inactive (S : p.Shows name slots free) (other : String)
    {status : WorkerStatusCode} (n : Int) (notIdle : status ≠ .idle) (notRunning : status ≠ .running) :
    (p.setWorkerStatusLocked other status n).Shows name slots free := by
  intro w found active
  rw [lookup_set] at found
  split at found
  · cases found
    exact absurd active (not_or.mpr ⟨notIdle, notRunning⟩)
  · exact S w found active

lemma Shows.set_other (S : p.Shows name slots free) (status : WorkerStatusCode) (n : Int)
    (differs : name ≠ other) : (p.setWorkerStatusLocked other status n).Shows name slots free :=
  S.of_lookup (by rw [lookup_set, if_neg differs])

lemma shows_set (p : AutoScaledPool χ) (name : String) {status : WorkerStatusCode}
    (positive : 0 ≤ n) (idle : status = .idle → free) :
    (p.setWorkerStatusLocked name status n).Shows name n free := by
  intro w found _
  rw [lookup_set, if_pos rfl] at found
  cases found
  exact ⟨if_neg (by omega), idle⟩

section

variable (S : p.Shows name slots free)
include S

lemma Shows.remove (other : String) : (p.removeWorkerLocked other).Shows name slots free := by
  intro w found
  simp only [removeWorkerLocked, lookup_erase] at found
  split at found
  · cases found
  · exact S w found

lemma Shows.upkept (U : Upkept p q) : q.Shows name slots free := by
  induction U with
  | same => exact S
  | other _ workers _ _ _ _ ih => exact ih.of_lookup (by rw [workers])
  | set other n _ notIdle notRunning ih => exact ih.set_inactive other n notIdle notRunning
  | remove other _ _ ih => exact ih.remove other
  | setVersion other version _ ih =>
    intro w found active
    obtain ⟨v, before, status, slots, -⟩ := lookup_setVersion found
    rw [← status] at active ⊢
    rw [← slots]
    exact ih v before active
  | await _ ih => exact ih
  | claimUnknown _ ih => exact ih

lemma Shows.event (other : String) (now : Time) :
    (p.handleResourcePoolEvent other now).Shows name slots free := by
  have marked : (p.markAllocationErrorLocked now).Shows name slots free := S
  unfold handleResourcePoolEvent
  simp only
  split
  · exact marked.remove other
  · split <;> exact marked

end

lemma lookup_notify (p : AutoScaledPool χ) (name other : String) (busy : Bool) (chan : χ)
    (n : Int) :
    (p.notifyAgentAvailable name busy chan n).workers.lookup other =
      if other = name then
        some { p.nextWorker name (if busy then .running else .idle) n with
          statusChan := some chan, availableSlot := n }
      else p.workers.lookup other := by
  unfold notifyAgentAvailable
  simp only
  generalize (if busy then WorkerStatusCode.running else .idle) = status
  have claimed : ∀ q : AutoScaledPool χ, q.workers = (p.clearAllocationErrorLocked.setWorkerStatusLocked
      name status n).workers → (q.setDetail name chan n).workers.lookup other =
        if other = name then
          some { p.nextWorker name status n with statusChan := some chan, availableSlot := n }
        else p.workers.lookup other := by
    intro q workers
    have found : q.workers.lookup name = some (p.nextWorker name status n) := by
      rw [workers, lookup_set, if_pos rfl]
      rfl
    unfold setDetail
    rw [found]
    simp only
    split
    · next same =>
      subst same
      exact lookup_insert_self _ _
    · next differs =>
      rw [lookup_insert_of_ne differs, workers, lookup_set, if_neg differs]
      rfl
  split <;> exact claimed _ rfl

end AutoScaledPool

def Op.reports (name : String) : Op χ → Bool
  | .markBusy other _ _ | .markIdle other _ _ | .notifyAgentAvailable other _ _ _ _ => other = name
  | _ => false

namespace AutoScaledPool

variable {p q : AutoScaledPool χ} {name : String} {slots : Int} {free : Prop}

lemma Shows.apply (S : p.Shows name slots free) (silent : op.reports name = false)
    (h : p.apply op = some (q, sent)) : q.Shows name slots free := by
  refine Shows.upkept ?_ (upkept_apply h)
  refine told_rule (I := (·.Shows name slots free)) (fun _ => id) (fun _ _ => id)
    (fun n sets S => ?_) ?_ ?_ (fun _ _ _ => S) S
  · cases op with
    | markBusy | markIdle =>
      refine S.set_other _ n fun same => ?_
      simp [Op.reports, sets.1, same] at silent
    | markLost | markDeleting | requestBatch =>
      refine S.set_inactive _ n ?_ ?_ <;> rintro rfl <;> simp [Op.sets] at sets
    | _ => cases sets
  · rintro other busy chan n o rfl
    have differs : name ≠ other := fun same => by simp [Op.reports, same] at silent
    exact S.of_lookup (by simp only [lookup_notify, if_neg differs])
  · exact fun other now _ _ => S.event other now

lemma shows_markBusy (positive : 0 ≤ n) (h : p.apply (.markBusy name n o) = some (q, sent)) :
    q.Shows name n free := by
  refine Shows.upkept ?_ (upkept_apply h)
  exact shows_set _ name positive (by simp)

lemma shows_markIdle (positive : 0 ≤ n) (idle : free)
    (h : p.apply (.markIdle name n o) = some (q, sent)) : q.Shows name n free := by
  refine Shows.upkept ?_ (upkept_apply h)
  exact shows_set _ name positive fun _ => idle

lemma shows_notify {busy : Bool} (idle : busy = false → free)
    (h : p.apply (.notifyAgentAvailable name busy chan n o) = some (q, sent)) :
    q.Shows name n free := by
  refine Shows.upkept ?_ (upkept_apply h)
  intro w found _
  simp only [told, lookup_notify] at found
  cases found
  refine ⟨rfl, fun status => idle ?_⟩
  cases busy with
  | false => rfl
  | true => cases status

end AutoScaledPool

end Velda.Pool
