import Velda.Backends.AsyncManager

/-! The life of a worker under the asynchronous manager. Whatever goroutines run for other
workers, one worker is in one of seven phases, and what the maps and the provider say
about it follows from the phase. This holds in runs in which a list is installed only
while it is true and no suspension or deletion is half done, and in which a worker is
requested to be deleted once. -/
namespace Velda.Backends
open Lib

variable {ν : Type} [DecidableEq ν]

structure View (ν : Type) where
  active : Prop
  suspended : Prop
  suspending : Prop
  resuming : Prop
  running : Prop
  stopped : Prop
  held : Prop
  caused : Prop
  owed : Prop
  creating : Option (ν × Nat)
  creators : Finset (Creator ν)
  deleters : Finset (Deleter ν)

def Manager.view (s : Manager ν) (n : ν) : View ν where
  active := n ∈ s.activeWorkers
  suspended := n ∈ s.suspendedWorkers
  suspending := n ∈ s.suspendingWorkers
  resuming := n ∈ s.resumingWorkers
  running := n ∈ s.remote.active
  stopped := n ∈ s.remote.suspended
  held := n ∈ s.held
  caused := n ∈ s.caused
  owed := n ∈ s.owed
  creating := s.creatingWorkers.lookup n
  creators := s.creators.filter (·.name = n)
  deleters := s.deleters.filter (·.name = n)

namespace View

structure Idle (v : View ν) : Prop where
  creators : v.creators = ∅
  deleters : v.deleters = ∅
  creating : v.creating = none
  resuming : ¬ v.resuming
  suspending : ¬ v.suspending
  owed : ¬ v.owed

structure Starting (n : ν) (c : Creator ν) (v : View ν) : Prop where
  creators : v.creators = {c}
  creating : v.creating = some (n, c.op)
  resuming : v.resuming ↔ c.resume = true
  suspended : ¬ v.suspended
  calling : c.stage = .calling → c.resume = false → ¬ v.stopped
  called : c.stage ≠ .calling → v.running
  cached : c.stage = .cached → v.active

structure Ending (d : Deleter ν) (v : View ν) : Prop where
  deleters : v.deleters = {d}
  suspending : v.suspending ↔ d.shouldSuspend = true
  caused : v.caused ↔ d.shouldSuspend = true
  held : ¬ v.held
  suspended : ¬ v.suspended

structure Settled (v : View ν) : Prop where
  creators : v.creators = ∅
  creating : v.creating = none
  resuming : ¬ v.resuming

variable {n : ν} {c : Creator ν} {v : View ν}

lemma Starting.call (S : v.Starting n c) :
    Starting n { c with stage := .called } { v with
      running := True
      stopped := False
      creators := insert { c with stage := .called } (v.creators.erase c) } where
  creators := by rw [S.creators, Finset.erase_singleton, insert_empty_eq]
  creating := S.creating
  resuming := S.resuming
  suspended := S.suspended
  calling h := nomatch h
  called _ := trivial
  cached h := nomatch h

lemma Starting.cache (S : v.Starting n c) (stage : c.stage = .called) :
    Starting n { c with stage := .cached } { v with
      active := True
      creators := insert { c with stage := .cached } (v.creators.erase c) } where
  creators := by rw [S.creators, Finset.erase_singleton, insert_empty_eq]
  creating := S.creating
  resuming := S.resuming
  suspended := S.suspended
  calling h := nomatch h
  called _ := S.called (by rw [stage]; decide)
  cached _ := trivial

lemma Starting.finish (S : v.Starting n c) :
    Settled { v with
      creating := none
      resuming := c.resume = false ∧ v.resuming
      creators := v.creators.erase c } where
  creators := by rw [S.creators, Finset.erase_singleton]
  creating := rfl
  resuming h := by
    have resumes := S.resuming.mp h.2
    rw [h.1] at resumes
    cases resumes

omit [DecidableEq ν] in
lemma Starting.list (S : v.Starting n c) (seen : Prop) :
    Starting n c { v with
      active := v.running
      suspended := (v.suspended ∨ v.stopped ∧ ¬ v.resuming) ∧ ¬ v.running ∧
        (seen ∨ v.stopped) } where
  creators := S.creators
  creating := S.creating
  resuming := S.resuming
  suspended := by
    rintro ⟨known | ⟨stopped, fresh⟩, gone, -⟩
    · exact S.suspended known
    · have creates : c.resume = false := by simpa [S.resuming] using fresh
      by_cases stage : c.stage = .calling
      · exact S.calling stage creates stopped
      · exact gone (S.called stage)
  calling := S.calling
  called := S.called
  cached stage := S.called (by rw [stage]; decide)

end View

/-- The phases of the worker `n`. It is unknown to the manager, suspended, being started, in use,
being started with its end requested, going to be ended, or ended at the provider. -/
inductive Phase (n : ν) (v : View ν) : Prop
  | free (idle : v.Idle) (held : ¬ v.held) (suspended : ¬ v.suspended) (caused : ¬ v.caused)
  | parked (idle : v.Idle) (held : ¬ v.held) (suspended : v.suspended) (active : ¬ v.active)
      (caused : v.caused → v.stopped)
  | starting (c : Creator ν) (starts : v.Starting n c) (deleters : v.deleters = ∅)
      (held : v.held) (suspending : ¬ v.suspending) (caused : ¬ v.caused) (owed : ¬ v.owed)
  | inUse (idle : v.Idle) (held : v.held) (suspended : ¬ v.suspended) (caused : ¬ v.caused)
      (active : v.active) (running : v.running)
  | doomed (c : Creator ν) (d : Deleter ν) (starts : v.Starting n c) (ends : v.Ending d)
      (stage : d.stage = .waiting) (creatingOp : d.creatingOp = some c.op)
  | ending (d : Deleter ν) (ends : v.Ending d) (settled : v.Settled) (active : v.active)
      (running : v.running) (stage : d.stage = .waiting ∨ d.stage = .found)
  | ended (d : Deleter ν) (ends : v.Ending d) (settled : v.Settled) (active : v.active)
      (owed : ¬ v.owed) (stopped : d.shouldSuspend = true → v.stopped) (stage : d.stage = .called)

/-- A list is installed while it is what the provider has and no suspended or deleted worker waits
for the maps to follow; a request to delete is for a worker that was handed out and for
which there was none since. -/
def Careful (s : Manager ν) : Action ν → Prop
  | .rebuild l => l.remoteWorkers = some s.remote ∧ ∀ d ∈ s.deleters, d.stage ≠ .called
  | .requestDelete name => name ∈ s.held
  | _ => True

instance (s : Manager ν) (a : Action ν) : Decidable (Careful s a) := by
  induction a using Action.casesOn <;> unfold Careful <;> infer_instance

namespace Manager

variable {s t : Manager ν} {n m : ν}

lemma filter_other {τ : Type} [DecidableEq τ] {threads : Finset τ} {name : τ → ν} {a : τ}
    (other : name a ≠ n) :
    (insert a threads).filter (name · = n) = threads.filter (name · = n) ∧
      (threads.erase a).filter (name · = n) = threads.filter (name · = n) := by
  constructor <;> ext c <;> grind

lemma launch_other (resume : Bool) (other : m ≠ n) :
    (s.launch n resume).view m = s.view m := by
  simp [launch, view, Keyed.lookup_insert_of_ne, other, filter_other, other.symm]

lemma requestScaleUp_other (taken : s.requestScaleUp n = some t) (other : m ≠ n) :
    t.view m = s.view m := by
  unfold requestScaleUp at taken
  split at taken
  · split at taken
    · cases taken
      rw [launch_other _ other]
      simp [view, other]
    · cases taken
  · split at taken
    · cases taken
      exact launch_other _ other
    · cases taken

lemma create_other {c : Creator ν} (taken : s.create c = some t) (other : m ≠ c.name) :
    t.view m = s.view m := by
  unfold create at taken
  split at taken
  · split at taken <;> cases taken
    · simp [view, Remote.start, other, filter_other, other.symm]
    · simp [view, other, filter_other, other.symm]
    · cases resume : c.resume <;>
        simp [view, other, filter_other, other.symm, Keyed.lookup_erase]
  · cases taken

lemma requestDelete_other (other : m ≠ n) : (s.requestDelete n).view m = s.view m := by
  cases suspend : s.shouldSuspend <;> by_cases started : s.Started n <;>
    simp [requestDelete, view, other, filter_other, other.symm, suspend, started]

lemma delete_other {d : Deleter ν} (taken : s.delete d = some t) (other : m ≠ d.name) :
    t.view m = s.view m := by
  unfold delete at taken
  split at taken
  · split at taken
    · split at taken
      · cases taken
        simp [view, filter_other, other.symm]
      · cases taken
    · cases taken
      cases suspend : d.shouldSuspend <;> simp [view, other, filter_other, other.symm]
    · cases taken
      cases suspend : d.shouldSuspend <;> by_cases active : d.name ∈ s.remote.active <;>
        simp [view, other, filter_other, other.symm, active, Remote.suspendWorker,
          Remote.deleteWorker]
    · cases taken
      cases suspend : d.shouldSuspend <;> simp [view, other, filter_other, other.symm]
  · cases taken

lemma requestScaleUp_own (taken : s.requestScaleUp n = some t) :
    ∃ resume, t.view n = { s.view n with
        suspended := False
        resuming := resume = true ∨ (s.view n).resuming
        creating := some (n, s.nextOp)
        creators := insert ⟨s.nextOp, n, resume, .calling⟩ (s.view n).creators
        held := True
        caused := False } ∧
      ((s.view n).suspended ∧ resume = true ∨
        (s.view n).creating = none ∧ ¬ (s.view n).active ∧ ¬ (s.view n).suspended ∧
          ¬ (s.view n).stopped) := by
  unfold requestScaleUp at taken
  split at taken
  · split at taken
    · next mem =>
      cases taken
      refine ⟨true, ?_, .inl ⟨mem, rfl⟩⟩
      simp [launch, view, Finset.filter_insert]
    · cases taken
  · split at taken
    · next fresh =>
      cases taken
      simp [launch, view, Finset.filter_insert, fresh]
    · cases taken

lemma create_own (taken : s.create c = some t) :
    c ∈ (s.view c.name).creators ∧
    (c.stage = .calling ∧ t.view c.name = { s.view c.name with
        running := True
        stopped := False
        creators := insert { c with stage := .called } ((s.view c.name).creators.erase c) } ∨
      c.stage = .called ∧ t.view c.name = { s.view c.name with
        active := True
        creators := insert { c with stage := .cached } ((s.view c.name).creators.erase c) } ∨
      c.stage = .cached ∧ t.view c.name = { s.view c.name with
        creating := none
        resuming := c.resume = false ∧ (s.view c.name).resuming
        creators := (s.view c.name).creators.erase c }) := by
  unfold create at taken
  split at taken
  · next mem =>
    refine ⟨Finset.mem_filter.mpr ⟨mem, rfl⟩, ?_⟩
    split at taken <;> cases taken
    · next stage =>
      refine .inl ⟨stage, ?_⟩
      simp [view, Remote.start, Finset.filter_insert, Finset.filter_erase]
    · next stage =>
      refine .inr (.inl ⟨stage, ?_⟩)
      simp [view, Finset.filter_insert, Finset.filter_erase]
    · next stage =>
      refine .inr (.inr ⟨stage, ?_⟩)
      cases resume : c.resume <;>
        simp [view, Keyed.lookup_erase, Finset.filter_erase]
  · cases taken

lemma requestDelete_own (started : s.Started n) : (s.requestDelete n).view n = { s.view n with
    suspending := s.shouldSuspend = true ∨ (s.view n).suspending
    deleters := insert ⟨s.nextOp, n, s.shouldSuspend, (s.view n).creating.map (·.2), .waiting⟩
      (s.view n).deleters
    held := False
    caused := s.shouldSuspend = true ∨ (s.view n).caused
    owed := True } := by
  cases suspend : s.shouldSuspend <;>
    simp [requestDelete, view, suspend, started, Finset.filter_insert]

lemma delete_own (taken : s.delete d = some t) :
    d ∈ (s.view d.name).deleters ∧
    (d.stage = .waiting ∧ s.Closed d.creatingOp ∧ (∃ stage,
        ((s.view d.name).active → stage = .found) ∧ t.view d.name = { s.view d.name with
          deleters := insert { d with stage } ((s.view d.name).deleters.erase d) }) ∨
      d.stage = .missing ∨
      d.stage = .found ∧ t.view d.name = { s.view d.name with
        running := False
        stopped := d.shouldSuspend = true
        deleters := insert { d with stage := .called } ((s.view d.name).deleters.erase d)
        owed := ¬ (s.view d.name).running ∧ (s.view d.name).owed } ∨
      d.stage = .called ∧ t.view d.name = { s.view d.name with
        active := False
        suspending := d.shouldSuspend = false ∧ (s.view d.name).suspending
        suspended := d.shouldSuspend = true ∨ (s.view d.name).suspended
        deleters := (s.view d.name).deleters.erase d }) := by
  unfold delete at taken
  split at taken
  · next mem =>
    refine ⟨Finset.mem_filter.mpr ⟨mem, rfl⟩, ?_⟩
    split at taken
    · next stage =>
      split at taken
      · next closed =>
        cases taken
        refine .inl ⟨stage, closed, if d.name ∈ s.activeWorkers then .found else .missing,
          fun active => if_pos active, ?_⟩
        simp [view, Finset.filter_insert, Finset.filter_erase]
      · cases taken
    · next stage => exact .inr (.inl stage)
    · next stage =>
      cases taken
      refine .inr (.inr (.inl ⟨stage, ?_⟩))
      cases suspend : d.shouldSuspend <;> by_cases active : d.name ∈ s.remote.active <;>
        simp [view, Finset.filter_insert, Finset.filter_erase, Remote.suspendWorker,
          Remote.deleteWorker, active]
    · next stage =>
      cases taken
      refine .inr (.inr (.inr ⟨stage, ?_⟩))
      cases suspend : d.shouldSuspend <;> simp [view, Finset.filter_erase]
  · cases taken

lemma rebuild_own (taken : s.rebuild l = some t) (current : l.remoteWorkers = some s.remote) :
    ∃ seen : Prop, t.view n = { s.view n with
      active := (s.view n).running
      suspended := ((s.view n).suspended ∨ (s.view n).stopped ∧ ¬ (s.view n).resuming) ∧
        ¬ (s.view n).running ∧ (seen ∨ (s.view n).stopped) } := by
  unfold rebuild at taken
  split at taken
  · refine ⟨n ∈ l.seen, ?_⟩
    simp only [view]
    grind
  · cases taken

end Manager

namespace Phase

variable {s t : Manager ν} {n : ν}

open Manager View

lemma scaled (P : Phase n (s.view n)) (taken : s.requestScaleUp n = some t) :
    (s.view n).Idle ∧ ¬ (s.view n).held := by
  obtain ⟨resume, -, known⟩ := requestScaleUp_own taken
  cases P with
  | free idle held | parked idle held => exact ⟨idle, held⟩
  | inUse _ _ suspended _ active => simp [suspended, active] at known
  | starting _ starts | doomed _ _ starts => simp [starts.suspended, starts.creating] at known
  | ending _ ends _ active | ended _ ends _ active => simp [ends.suspended, active] at known

lemma requestScaleUp (P : Phase n (s.view n)) (taken : s.requestScaleUp n = some t) :
    Phase n (t.view n) := by
  obtain ⟨idle, -⟩ := P.scaled taken
  obtain ⟨resume, eq, known⟩ := requestScaleUp_own taken
  rw [eq]
  refine .starting ⟨s.nextOp, n, resume, .calling⟩ ?_ idle.deleters trivial idle.suspending id
    idle.owed
  exact {
    creators := by rw [idle.creators, insert_empty_eq]
    creating := rfl
    resuming := or_iff_left idle.resuming
    suspended := id
    calling := by
      rintro - rfl
      exact (known.resolve_left (fun h => nomatch h.2)).2.2.2
    called := fun h => absurd rfl h
    cached := fun h => nomatch h }

lemma create (P : Phase c.name (s.view c.name)) (taken : s.create c = some t) :
    Phase c.name (t.view c.name) := by
  obtain ⟨mem, changed⟩ := create_own taken
  cases P with
  | starting b starts deleters held suspending caused owed =>
    rw [starts.creators, Finset.mem_singleton] at mem
    subst mem
    rcases changed with ⟨stage, eq⟩ | ⟨stage, eq⟩ | ⟨stage, eq⟩ <;> rw [eq]
    · exact .starting _ (starts.call) deleters held suspending caused owed
    · exact .starting _ (starts.cache stage) deleters held suspending caused owed
    · have done := starts.finish
      refine .inUse ⟨done.creators, deleters, done.creating, done.resuming, suspending, owed⟩ held
        starts.suspended caused (starts.cached stage) (starts.called ?_)
      rw [stage]
      decide
  | doomed b d starts ends waits creatingOp =>
    rw [starts.creators, Finset.mem_singleton] at mem
    subst mem
    rcases changed with ⟨stage, eq⟩ | ⟨stage, eq⟩ | ⟨stage, eq⟩ <;> rw [eq]
    · exact .doomed _ d (starts.call) { ends with } waits creatingOp
    · exact .doomed _ d (starts.cache stage) { ends with } waits creatingOp
    · refine .ending d { ends with } starts.finish (starts.cached stage) (starts.called ?_) (.inl waits)
      rw [stage]
      decide
  | free idle | parked idle | inUse idle => simp [idle.creators] at mem
  | ending _ _ settled | ended _ _ settled => simp [settled.creators] at mem

lemma requestDelete (P : Phase n (s.view n)) (held : n ∈ s.held) :
    Phase n ((s.requestDelete n).view n) := by
  cases P with
  | inUse idle _ suspended caused active running =>
    rw [requestDelete_own (.inr running), idle.deleters, idle.creating, insert_empty_eq]
    refine .ending _ ⟨rfl, ?_, ?_, id, suspended⟩ ⟨idle.creators, idle.creating, idle.resuming⟩ active
      running (.inl rfl)
    · exact or_iff_left idle.suspending
    · exact or_iff_left caused
  | starting c starts deleters _ suspending caused owed =>
    have own : c ∈ s.creators ∧ c.name = n :=
      Finset.mem_filter.mp (starts.creators ▸ Finset.mem_singleton_self c)
    rw [requestDelete_own (.inl ⟨c, own⟩), deleters, starts.creating, insert_empty_eq]
    refine .doomed c _ { starts with } ⟨rfl, ?_, ?_, id, starts.suspended⟩ rfl rfl
    · exact or_iff_left suspending
    · exact or_iff_left caused
  | free _ free | parked _ free => exact absurd held free
  | doomed _ _ _ ends | ending _ ends | ended _ ends => exact absurd held ends.held

lemma delete (P : Phase d.name (s.view d.name)) (taken : s.delete d = some t) :
    Phase d.name (t.view d.name) := by
  obtain ⟨mem, changed⟩ := delete_own taken
  cases P with
  | doomed c b starts ends waits creatingOp =>
    rw [ends.deleters, Finset.mem_singleton] at mem
    subst mem
    have own : c ∈ s.creators :=
      (Finset.mem_filter.mp (starts.creators ▸ Finset.mem_singleton_self c)).1
    simp only [waits, reduceCtorEq, false_and, or_false, true_and] at changed
    exact absurd creatingOp (changed.1 c own)
  | ending b ends settled active running stage =>
    rw [ends.deleters, Finset.mem_singleton] at mem
    subst mem
    rw [ends.deleters, Finset.erase_singleton, insert_empty_eq] at changed
    rcases changed with ⟨waits, -, next, found, eq⟩ | missing | ⟨found, eq⟩ | ⟨called, -⟩
    · rw [eq, found active]
      exact .ending _ { ends with deleters := rfl } { settled with } active running (.inr rfl)
    · simp [missing] at stage
    · rw [eq]
      exact .ended _ { ends with deleters := rfl } { settled with } active
        (fun owed => owed.1 running) id rfl
    · simp [called] at stage
  | ended b ends settled active owed stopped stage =>
    rw [ends.deleters, Finset.mem_singleton] at mem
    subst mem
    simp only [stage, reduceCtorEq, false_and, false_or, true_and] at changed
    rw [changed]
    have idle : Idle { s.view d.name with
        active := False
        suspending := d.shouldSuspend = false ∧ (s.view d.name).suspending
        suspended := d.shouldSuspend = true ∨ (s.view d.name).suspended
        deleters := (s.view d.name).deleters.erase d } := by
      refine ⟨settled.creators, ?_, settled.creating, settled.resuming, ?_, owed⟩
      · rw [ends.deleters, Finset.erase_singleton]
      · rintro ⟨terminates, suspends⟩
        have decided := ends.suspending.mp suspends
        rw [terminates] at decided
        cases decided
    cases suspend : d.shouldSuspend with
    | true =>
      rw [suspend] at idle
      exact .parked idle ends.held (.inl rfl) id fun _ => stopped suspend
    | false =>
      rw [suspend] at idle
      refine .free idle ends.held ?_ ?_
      · rintro (suspends | suspended)
        · cases suspends
        · exact ends.suspended suspended
      · intro caused
        have suspends := ends.caused.mp caused
        rw [suspend] at suspends
        cases suspends
  | free idle | parked idle | inUse idle => simp [idle.deleters] at mem
  | starting _ _ deleters => simp [deleters] at mem

lemma rebuild (P : Phase n (s.view n)) (taken : s.rebuild l = some t)
    (current : l.remoteWorkers = some s.remote) (settled : ∀ d ∈ s.deleters, d.stage ≠ .called) :
    Phase n (t.view n) := by
  have apart : (s.view n).running → ¬ (s.view n).stopped := s.remote.apart n
  obtain ⟨seen, eq⟩ := rebuild_own taken current
  rw [eq]
  cases P with
  | free idle held suspended caused =>
    by_cases listed : (s.view n).stopped ∧ ¬ (s.view n).running
    · exact .parked { idle with } held ⟨.inr ⟨listed.1, idle.resuming⟩, listed.2, .inr listed.1⟩
        listed.2 (absurd · caused)
    · refine .free { idle with } held ?_ caused
      rintro ⟨known | known, gone, -⟩
      · exact suspended known
      · exact listed ⟨known.1, gone⟩
  | parked idle held suspended active caused =>
    by_cases listed : ¬ (s.view n).running ∧ (seen ∨ (s.view n).stopped)
    · exact .parked { idle with } held ⟨.inl suspended, listed⟩ listed.1 caused
    · refine .free { idle with } held (fun known => listed known.2) fun cause => ?_
      have stopped := caused cause
      exact listed ⟨fun running => apart running stopped, .inr stopped⟩
  | starting c starts deleters held suspending caused owed =>
    exact .starting c (starts.list seen) deleters held suspending caused owed
  | inUse idle held suspended caused active running =>
    exact .inUse { idle with } held (fun known => known.2.1 running) caused running running
  | doomed c d starts ends stage creatingOp =>
    have again := starts.list seen
    exact .doomed c d again { ends with suspended := again.suspended } stage creatingOp
  | ending d ends settled active running stage =>
    exact .ending d { ends with suspended := fun known => known.2.1 running } { settled with }
      running running stage
  | ended d ends _ _ _ _ stage =>
    have mem : d ∈ s.deleters :=
      (Finset.mem_filter.mp (ends.deleters ▸ Finset.mem_singleton_self d)).1
    exact absurd stage (settled d mem)

lemma step (P : ∀ n, Phase n (s.view n)) (ok : Careful s a) (taken : Backends.step s a = some t)
    (n : ν) : Phase n (t.view n) := by
  cases a with
  | requestScaleUp name =>
    by_cases own : n = name
    · subst own
      exact (P n).requestScaleUp taken
    · rw [requestScaleUp_other taken own]
      exact P n
  | create c =>
    by_cases own : n = c.name
    · subst own
      exact (P c.name).create taken
    · rw [create_other taken own]
      exact P n
  | requestDelete name =>
    cases taken
    by_cases own : n = name
    · subst own
      exact (P n).requestDelete ok
    · rw [requestDelete_other own]
      exact P n
  | delete d =>
    by_cases own : n = d.name
    · subst own
      exact (P d.name).delete taken
    · rw [delete_other taken own]
      exact P n
  | listWorkers =>
    cases taken
    exact P n
  | listRemoteWorkers l =>
    simp only [Backends.step, listRemoteWorkers, Option.ite_none_right_eq_some] at taken
    cases taken.2
    exact P n
  | rebuild l => exact (P n).rebuild taken ok.1 ok.2

end Phase

omit [DecidableEq ν] in
lemma Phase.of_caused (P : Phase n v) (caused : v.caused) : v.suspended ∨ v.suspending := by
  cases P with
  | parked _ _ suspended => exact .inl suspended
  | doomed _ _ _ ends | ending _ ends | ended _ ends =>
    exact .inr (ends.suspending.mpr (ends.caused.mp caused))
  | free _ _ _ not | starting _ _ _ _ _ not | inUse _ _ _ not => exact absurd caused not

lemma caused_of_step {a : Action ν} (taken : step s a = some t) :
    t.maxSuspended = s.maxSuspended ∧ (t.caused ⊆ s.caused ∨
      ∃ n, s.shouldSuspend = true ∧ t.caused = insert n s.caused) := by
  cases a with
  | requestScaleUp name =>
    simp only [step, Manager.requestScaleUp] at taken
    split at taken <;> split at taken <;> cases taken <;>
      exact ⟨rfl, .inl (Finset.erase_subset _ _)⟩
  | create c =>
    simp only [step, Manager.create] at taken
    split at taken
    · split at taken <;> cases taken <;> exact ⟨rfl, .inl subset_rfl⟩
    · cases taken
  | requestDelete name =>
    cases taken
    refine ⟨rfl, ?_⟩
    cases suspend : s.shouldSuspend with
    | true => exact .inr ⟨name, rfl, by simp [Manager.requestDelete, suspend]⟩
    | false => exact .inl (by simp [Manager.requestDelete, suspend])
  | delete d =>
    simp only [step, Manager.delete] at taken
    split at taken
    · split at taken
      · split at taken <;> cases taken
        exact ⟨rfl, .inl subset_rfl⟩
      all_goals
        cases taken
        exact ⟨rfl, .inl subset_rfl⟩
    · cases taken
  | listWorkers =>
    cases taken
    exact ⟨rfl, .inl subset_rfl⟩
  | listRemoteWorkers l =>
    simp only [step, Manager.listRemoteWorkers, Option.ite_none_right_eq_some] at taken
    cases taken.2
    exact ⟨rfl, .inl subset_rfl⟩
  | rebuild l =>
    simp only [step, Manager.rebuild, Option.ite_none_right_eq_some, Option.map_eq_some_iff]
      at taken
    obtain ⟨-, r, -, rfl⟩ := taken
    exact ⟨rfl, .inl subset_rfl⟩

/-- Every worker is in a phase, and no more are suspended on request than allowed. -/
structure Manager.Orderly (s : Manager ν) : Prop where
  phase : ∀ n, Phase n (s.view n)
  caused : s.caused.card ≤ s.maxSuspended

namespace Manager.Orderly

variable {s t : Manager ν} {a : Action ν}

lemma counted (O : s.Orderly) : s.caused ⊆ s.suspendedWorkers ∪ s.suspendingWorkers := by
  intro n caused
  exact Finset.mem_union.mpr ((O.phase n).of_caused caused)

lemma step (O : s.Orderly) (ok : Careful s a) (taken : Backends.step s a = some t) :
    t.Orderly := by
  refine ⟨Phase.step O.phase ok taken, ?_⟩
  obtain ⟨same, fewer | ⟨n, suspend, more⟩⟩ := caused_of_step taken
  · rw [same]
    exact (Finset.card_le_card fewer).trans O.caused
  · have room : s.suspendedWorkers.card + s.suspendingWorkers.card < s.maxSuspended := by
      simp only [shouldSuspend, Bool.and_eq_true, decide_eq_true_eq] at suspend
      exact suspend.2
    calc t.caused.card ≤ s.caused.card + 1 := more ▸ Finset.card_insert_le n s.caused
      _ ≤ (s.suspendedWorkers ∪ s.suspendingWorkers).card + 1 :=
        Nat.add_le_add_right (Finset.card_le_card O.counted) 1
      _ ≤ s.suspendedWorkers.card + s.suspendingWorkers.card + 1 :=
        Nat.add_le_add_right (Finset.card_union_le _ _) 1
      _ ≤ t.maxSuspended := same ▸ room

lemma init (resumable : Bool) (maxSuspended : Nat) (remote : Remote ν) :
    (makeAsyncResumable resumable maxSuspended remote).Orderly := by
  have none (a : ν) : a ∉ (∅ : Finset ν) := Finset.notMem_empty a
  refine ⟨fun n => .free ⟨rfl, rfl, rfl, none n, none n, none n⟩ (none n) (none n) (none n), ?_⟩
  exact Nat.zero_le _

lemma of_reachable {resumable : Bool} {maxSuspended : Nat} {remote : Remote ν}
    (h : Reachable Backends.step Careful (makeAsyncResumable resumable maxSuspended remote) s) :
    s.Orderly :=
  h.invariant (init resumable maxSuspended remote) fun _ _ _ O ok taken => O.step ok taken

end Manager.Orderly

end Velda.Backends
