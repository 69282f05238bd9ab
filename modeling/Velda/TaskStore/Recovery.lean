import Velda.TaskStore.Leases

/-! Whether every lease can be recovered. A lease is written by a poll or a reconnection and the
heartbeat of its leaser by a ticker, and `ReleaseExpiredLeaser` releases leases in one statement
and deletes heartbeats in another. -/
namespace Velda.TaskStore
open Lib List Option

variable {η : Type} {before : η → η → Bool} {P : String → Prop} {store store' : Store}

/-- The tables, the brokers that are alive, and the cutoff of every `ReleaseExpiredLeaser` that is
between its two statements. -/
structure Leasing (η : Type) where
  store : Store := .empty
  leasers : List (String × η) := []
  alive : List String := []
  releasing : List η := []

inductive LeasingAction (η : Type)
  | start (identity : String)
  | crash (identity : String)
  | renewLeaser (identity : String) (now : η)
  | rows (op : JobOp)
  | releaseExpiredLeaser (cutoff : η)
  | deleteLeasers (i : Nat)

namespace Leasing
variable {s s' : Leasing η} {act : LeasingAction η}

/-- A broker polls and reconnects tasks while it is alive. -/
def allows (s : Leasing η) : JobOp → Bool
  | .store (.poll leaser) | .reconnect _ leaser => leaser ∈ s.alive
  | .release _ => false
  | _ => true

def step (before : η → η → Bool) (s : Leasing η) : LeasingAction η → Option (Leasing η)
  | .start identity => some { s with alive := identity :: s.alive }
  | .crash identity => some { s with alive := s.alive.filter (· ≠ identity) }
  | .renewLeaser identity now =>
    if identity ∈ s.alive then
      some { s with leasers := (identity, now) :: s.leasers.filter (·.1 ≠ identity) }
    else none
  | .rows op =>
    if s.allows op then (jobStep s.store op).map fun store => { s with store := store } else none
  | .releaseExpiredLeaser cutoff =>
    some { s with
      store := releaseLeases s.store ((s.leasers.filter (before ·.2 cutoff)).map (·.1))
      releasing := cutoff :: s.releasing }
  | .deleteLeasers i => s.releasing[i]?.map fun cutoff => { s with
      leasers := s.leasers.filter (!before ·.2 cutoff)
      releasing := s.releasing.eraseIdx i }

def Known (s : Leasing η) (identity : String) : Prop :=
  identity ∈ s.alive ∨ identity ∈ s.leasers.map (·.1)

def LeasesNone (s : Leasing η) (identity : String) : Prop :=
  ∀ t ∈ s.store.tasks, t.status = .leased → t.leaseBy ≠ some identity

instance (s : Leasing η) (identity : String) : Decidable (s.LeasesNone identity) :=
  inferInstanceAs (Decidable (∀ t ∈ s.store.tasks, _))

/-- A broker that crashes has a heartbeat in the table or leases nothing, and so does a broker that
is not alive when its heartbeat is deleted. -/
def Covered (before : η → η → Bool) (s : Leasing η) : LeasingAction η → Prop
  | .crash identity => identity ∈ s.leasers.map (·.1) ∨ s.LeasesNone identity
  | .deleteLeasers i => ∀ cutoff ∈ s.releasing[i]?, ∀ l ∈ s.leasers, before l.2 cutoff = true →
      l.1 ∈ s.alive ∨ s.LeasesNone l.1
  | _ => True

instance (s : Leasing η) (act : LeasingAction η) : Decidable (Covered before s act) := by
  induction act using LeasingAction.casesOn <;> unfold Covered <;> infer_instance

end Leasing

/-- Every leased row names a leaser that is `P`. -/
def Held (P : String → Prop) (s : Store) : Prop :=
  ∀ t ∈ s.tasks, t.status = .leased → ∃ identity ∈ t.leaseBy, P identity

lemma Held.map {f : Task → Task} (held : Held P store) (tasks : store'.tasks = store.tasks.map f)
    (rows : ∀ t ∈ store.tasks, (f t).status = .leased →
      t.status = .leased ∧ (f t).leaseBy = t.leaseBy ∨ ∃ identity ∈ (f t).leaseBy, P identity) :
    Held P store' := by
  intro t' mem leased
  rw [tasks] at mem
  obtain ⟨t, ht, rfl⟩ := mem_map.mp mem
  rcases rows t ht leased with ⟨old, same⟩ | new
  · rw [same]
    exact held t ht old
  · exact new

lemma Held.settles (held : Held P store) (h : Settles store store') : Held P store' := by
  obtain ⟨f, tasks, rows⟩ := h
  refine held.map tasks fun t ht leased => .inl ?_
  obtain ⟨-, same, status⟩ := rows t ht
  exact ⟨status.elim (fun eq => eq ▸ leased) fun gone => absurd leased gone.1, same⟩

lemma Held.jobStep (held : Held P store)
    (leases : ∀ leaser, op = .store (.poll leaser) ∨ (∃ k, op = .reconnect k leaser) → P leaser)
    (h : jobStep store op = some store') : Held P store' := by
  rcases op with (⟨r, now⟩ | leaser | ⟨k, result, clock⟩) | ⟨jobId, now⟩ | expired | ⟨k, leaser⟩
  · obtain ⟨⟨_, _, _⟩, created, rfl⟩ := map_eq_some_iff.mp h
    obtain ⟨_, _, _, tasks, -, -, -, -, -, -, started⟩ := createTask_cases created
    intro t mem leased
    rw [tasks] at mem
    rcases mem_append.mp mem with old | new
    · exact held t old leased
    · rcases started with queueing | ⟨failed, -⟩ <;> simp_all [SessionRequest.row]
  · cases h
    refine held.map rfl fun t _ leased => ?_
    split at leased
    · next chosen => exact .inr ⟨leaser, by simp [chosen], leases leaser (.inl rfl)⟩
    · next unchosen => exact .inl ⟨leased, by simp [unchosen]⟩
  · exact held.settles (.updateTaskFinalResult h)
  · cases h
    exact held.settles (.cancelJob jobId now)
  · cases h
    refine held.map rfl fun t _ leased => .inl ?_
    split at leased
    · cases leased
    · next kept => exact ⟨leased, by rw [if_neg kept]⟩
  · obtain ⟨-, h⟩ := ite_none_right_eq_some.mp h
    cases h
    refine held.map rfl fun t _ leased => ?_
    split at leased
    · next atKey => exact .inr ⟨leaser, by simp [atKey], leases leaser (.inr ⟨k, rfl⟩)⟩
    · next other => exact .inl ⟨leased, by simp [other]⟩

namespace Leasing
variable {s s' : Leasing η} {act : LeasingAction η}

lemma held_of_known (held : Held s.Known s.store) (store : s'.store = s.store)
    (known : ∀ identity, s.Known identity → s'.Known identity ∨ s.LeasesNone identity) :
    Held s'.Known s'.store := by
  rw [store]
  intro t ht leased
  obtain ⟨identity, own, still⟩ := held t ht leased
  exact ⟨identity, own, (known identity still).resolve_right fun none => none t ht leased own⟩

lemma held_step (held : Held s.Known s.store) (covered : Covered before s act)
    (h : s.step before act = some s') : Held s'.Known s'.store := by
  cases act with
  | start =>
    cases h
    exact held_of_known held rfl fun _ known => .inl (known.imp_left (mem_cons_of_mem _))
  | crash identity =>
    cases h
    refine held_of_known held rfl fun other known => ?_
    by_cases same : other = identity
    · subst same
      exact Or.imp_left .inr covered
    · exact .inl (known.imp_left fun alive => mem_filter.mpr ⟨alive, by simpa using same⟩)
  | renewLeaser identity now =>
    obtain ⟨-, h⟩ := ite_none_right_eq_some.mp h
    cases h
    refine held_of_known held rfl fun other known => .inl (known.imp_right fun row => ?_)
    obtain ⟨l, mem, rfl⟩ := mem_map.mp row
    by_cases same : l.1 = identity
    · simp [same]
    · exact mem_cons_of_mem _ (mem_map_of_mem (mem_filter.mpr ⟨mem, by simpa using same⟩))
  | rows op =>
    obtain ⟨allowed, h⟩ := ite_none_right_eq_some.mp h
    obtain ⟨store, stepped, rfl⟩ := map_eq_some_iff.mp h
    refine held.jobStep (fun leaser leases => ?_) stepped
    rcases leases with rfl | ⟨k, rfl⟩ <;> exact .inl (of_decide_eq_true allowed)
  | releaseExpiredLeaser cutoff =>
    cases h
    exact held.jobStep (by simp) (rfl : jobStep s.store (.release _) = _)
  | deleteLeasers i =>
    obtain ⟨cutoff, found, rfl⟩ := map_eq_some_iff.mp h
    refine held_of_known held rfl fun other known => ?_
    rcases known with alive | row
    · exact .inl (.inl alive)
    · obtain ⟨l, mem, rfl⟩ := mem_map.mp row
      by_cases old : before l.2 cutoff = true
      · exact (covered cutoff found l mem old).imp_left .inl
      · exact .inl (.inr (mem_map_of_mem (mem_filter.mpr ⟨mem, by simpa using old⟩)))

end Leasing

namespace Leasing

/-- Broker `b` is gone and a leased row names it. -/
def Gone (s : Leasing η) : Prop :=
  "b" ∉ s.alive ∧ ∃ t ∈ s.store.tasks, t.status = .leased ∧ t.leaseBy = some "b"

instance (s : Leasing η) : Decidable s.Gone :=
  inferInstanceAs (Decidable (_ ∧ ∃ t ∈ s.store.tasks, _))

def polls : List (LeasingAction Nat) :=
  [.rows (.store (.create { taskId := ⟨[], "t"⟩, dependencies := [] } 0)),
    .rows (.store (.poll "b"))]

end Leasing

end Velda.TaskStore
