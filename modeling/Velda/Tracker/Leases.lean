import Velda.Tracker.Executions

/-! Who works on a leased row. The callback of a poll hands the row to a session that is
registered with the tracker, and a goroutine waits for the session to be scheduled: it
writes the row when that fails. The completion of the session writes the row when the
job is cancelled, and an agent that sends a result does. Every other end of a session
leaves the row as it is. -/
namespace Velda.Tracker
open Lib Broker TaskStore List Option Function TaskTracker

variable {cfg : Config} {tr u : TaskTracker cfg} {setup : Setup}

namespace TaskTracker

/-- The callback for the row has not run, or a goroutine is about to mark it. -/
def Settling (tr : TaskTracker cfg) (k : TaskKey) : Prop :=
  k ∈ tr.batch.map (·.key) ∨ ∃ g ∈ tr.goroutines, g.reports = true ∧
    task cfg g.session = some k ∧ (tr.broker.sessions g.session).status.terminal = true

instance (tr : TaskTracker cfg) (k : TaskKey) : Decidable (tr.Settling k) :=
  inferInstanceAs (Decidable (_ ∨ ∃ g ∈ tr.goroutines, _))

def Free (tr : TaskTracker cfg) (k : TaskKey) : Prop :=
  ∀ y ∈ tr.broker.created, tr.broker.Live y → (tr.home y).isSome = true → task cfg y ≠ some k

instance (tr : TaskTracker cfg) (k : TaskKey) : Decidable (tr.Free k) :=
  inferInstanceAs (Decidable (∀ y ∈ tr.broker.created, _))

/-- The map of the job and the entry of the task are not those of a later session. -/
def Fits (tr : TaskTracker cfg) (x : SessionPtr) : Prop :=
  ∀ m ∈ tr.home x, ∀ k ∈ task cfg x, (tr.jobs k.jobId = none ∨ tr.jobs k.jobId = some m) ∧
    ((tr.entries m).lookup k = none ∨ (tr.entries m).lookup k = some x)

instance (tr : TaskTracker cfg) (x : SessionPtr) : Decidable (tr.Fits x) :=
  inferInstanceAs (Decidable (∀ m ∈ tr.home x, ∀ k ∈ task cfg x, _))

def Answered (tr : TaskTracker cfg) (x : SessionPtr) (evs : List Event) : Prop :=
  (∃ g ∈ tr.goroutines, g.session = x ∧ g.reports = true) ∨
    (∃ k ∈ task cfg x, tr.isCancelled k.jobId = true) ∨ .updateTaskResult x ∈ evs

instance (tr : TaskTracker cfg) (x : SessionPtr) (evs : List Event) :
    Decidable (tr.Answered x evs) :=
  inferInstanceAs (Decidable (_ ∨ (∃ k ∈ task cfg x, _) ∨ _))

end TaskTracker

/-- The branches that drop a lease are not taken: the store works, pools are known and service
names free, jobs of new sessions are not cancelled, a task gets a new session after the last
one, and the end of a session is answered. -/
def Tending (setup : Setup) (tr : TaskTracker cfg) : Action → Prop
  | .broker act os => Lasting (isTask cfg) tr.broker act ∧ (∀ o ∈ os, o.fails = false) ∧
      ∀ t ∈ Broker.step tr.broker act, ∀ x ∈ tr.broker.created,
        (∃ e ∈ tr.broker.news t, e.closes x = true) → tr.Fits x ∧
          (tr.broker.Live x → (tr.home x).isSome = true → tr.Answered x (tr.broker.news t))
  | .process _ c => ∀ row ∈ tr.batch.head?,
      if (setup.unmarshal row.payload).toShard then c.failedShard = none ∧ c.answer.fails = false
      else tr.getPool setup row.pool = true ∧
        tr.inUse row.instanceId (setup.unmarshal row.payload).serviceName = false ∧
        tr.isCancelled row.key.jobId = false ∧ tr.Free row.key
  | .goroutine i _ o => ∀ g ∈ tr.goroutines[i]?, g.reports = true →
      (tr.broker.sessions g.session).status.terminal = true → ∀ k ∈ task cfg g.session,
        tr.store.Leased setup.identity k →
          (tr.broker.sessions g.session).schedulingErr.isSome = true ∧ o.fails = false
  | .register _ x _ => ∀ k ∈ task cfg x, tr.store.statusOf k = some .leased →
      tr.isCancelled k.jobId = false ∧ tr.Free k
  | _ => True

instance (tr : TaskTracker cfg) (act : Action) : Decidable (Tending setup tr act) := by
  induction act using Action.casesOn <;> unfold Tending <;> infer_instance

structure Registry (tr : TaskTracker cfg) : Prop where
  home : ∀ x m, tr.home x = some m → x ∈ tr.broker.created ∧ m < tr.maps.length
  maps : ∀ j m, tr.jobs j = some m → m < tr.maps.length
  goroutines : ∀ g ∈ tr.goroutines, g.session ∈ tr.broker.created
  found : ∀ x k m, tr.broker.Live x → task cfg x = some k → tr.home x = some m →
    tr.jobs k.jobId = some m ∧ (tr.entries m).lookup k = some x

variable {k : TaskKey} {x : SessionPtr} {act : Broker.Action} {t : State cfg} {os : List Answer}
  {i : Nat}

namespace Registry

lemma init : Registry (init : TaskTracker cfg) := by
  constructor <;> simp [TaskTracker.init]

lemma leasedSession (R : Registry tr) (live : tr.broker.Live x) (own : task cfg x = some k)
    (registered : (tr.home x).isSome = true) : tr.leasedSession k = some x := by
  obtain ⟨m, home⟩ := isSome_iff_exists.mp registered
  obtain ⟨job, entry⟩ := R.found x k m live own home
  simp [TaskTracker.leasedSession, job, entry]

lemma live_before (lasting : Lasting (isTask cfg) tr.broker act) (h : Step tr.broker act t)
    (known : x ∈ tr.broker.created) (own : task cfg x = some k) (live : t.Live x) :
    tr.broker.Live x := by
  rcases live_of_step h lasting (by simp [isTask, own]) live with old | rfl | ⟨a, rfl⟩
  · exact old
  · cases h with
    | addSession unused => exact absurd known unused.1
  · cases h with
    | register _ unused => exact absurd known unused.1

lemma stepped (R : Registry tr) (lasting : Lasting (isTask cfg) tr.broker act)
    (h : Step tr.broker act t) : Registry ({ tr with broker := t } : TaskTracker cfg) where
  home x m home := ⟨created_of_step h (R.home x m home).1, (R.home x m home).2⟩
  maps := R.maps
  goroutines g mem := created_of_step h (R.goroutines g mem)
  found x k m live own home :=
    R.found x k m (live_before lasting h (R.home x m home).1 own live) own home

end Registry

namespace TaskTracker

lemma lookup_unregister (tr : TaskTracker cfg) (m n : Nat) (k j : TaskKey) :
    ((tr.unregister m k).entries n).lookup j =
      if n = m ∧ j = k then none else (tr.entries n).lookup j := by
  by_cases own : n = m
  · subst own
    have self : (tr.unregister n k).entries n = (tr.entries n).filter (·.1 ≠ k) := by
      by_cases bound : n < tr.maps.length
      · simp only [unregister, entries, List.getElem?_set_self bound, getD_some]
      · have beyond : tr.maps[n]? = none := List.getElem?_eq_none (Nat.le_of_not_lt bound)
        have still : ∀ rest, (tr.maps.set n rest)[n]? = none := fun rest =>
          List.getElem?_eq_none (by rw [length_set]; exact Nat.le_of_not_lt bound)
        simp only [unregister, entries, beyond, still, getD_none, filter_nil]
    rw [self, lookup_filter_ne]
    by_cases same : j = k <;> simp
  · simp [unregister, entries, own, Ne.symm own]

lemma jobs_unregister (tr : TaskTracker cfg) (m : Nat) (k : TaskKey) (jobId : Name) :
    (tr.unregister m k).jobs jobId = tr.jobs jobId ∨ jobId = k.jobId ∧
      (tr.unregister m k).jobs jobId = none ∧ ∀ j ≠ k, (tr.entries m).lookup j = none := by
  unfold unregister
  dsimp only
  split
  · next empty =>
    by_cases own : jobId = k.jobId
    · refine .inr ⟨own, by simp [own], fun j other => ?_⟩
      have rest := lookup_filter_ne (tr.entries m) j k
      rw [empty, if_neg other] at rest
      exact rest.symm
    · exact .inl (update_of_ne own _ _)
  · exact .inl rfl

lemma Fits.unregister (h : tr.Fits x) (m : Nat) (k : TaskKey) : (tr.unregister m k).Fits x := by
  intro n home j own
  obtain ⟨job, entry⟩ := h n home j own
  refine ⟨?_, ?_⟩
  · rcases tr.jobs_unregister m k j.jobId with same | ⟨-, none, -⟩
    · rw [same]
      exact job
    · exact .inl none
  · rw [lookup_unregister]
    split
    · exact .inl rfl
    · exact entry

def target (tr : TaskTracker cfg) (k : TaskKey) : Nat :=
  (tr.jobs k.jobId).getD tr.maps.length

lemma target_le (bound : ∀ j m, tr.jobs j = some m → m < tr.maps.length) :
    tr.target k ≤ tr.maps.length := by
  unfold target
  cases job : tr.jobs k.jobId with
  | none => exact Nat.le_refl _
  | some m => exact (bound _ m job).le

lemma maps_registered (h : tr.target k ≤ tr.maps.length) :
    ∃ maps : List (List (TaskKey × SessionPtr)), (tr.registered k x).maps =
        maps.set (tr.target k) ((k, x) :: (tr.entries (tr.target k)).filter (·.1 ≠ k)) ∧
      tr.target k < maps.length ∧ tr.maps.length ≤ maps.length ∧
      ∀ n, (maps[n]?).getD [] = tr.entries n := by
  refine ⟨if tr.target k < tr.maps.length then tr.maps else tr.maps ++ [[]], rfl, ?_⟩
  split
  · next old => exact ⟨old, Nat.le_refl _, fun _ => rfl⟩
  · refine ⟨by simp; omega, by simp, fun n => ?_⟩
    rw [List.getElem?_append]
    split
    · rfl
    · next high =>
      rw [entries, List.getElem?_eq_none (Nat.le_of_not_lt high)]
      cases n - tr.maps.length <;> rfl

lemma lookup_registered (h : tr.target k ≤ tr.maps.length) (j : TaskKey) (x : SessionPtr)
    (n : Nat) : ((tr.registered k x).entries n).lookup j =
      if n = tr.target k ∧ j = k then some x else (tr.entries n).lookup j := by
  obtain ⟨maps, eq, bound, -, old⟩ := maps_registered h
  rw [entries, eq]
  by_cases own : n = tr.target k
  · rw [own, List.getElem?_set_self bound, getD_some, lookup_cons, lookup_filter_ne]
    by_cases same : j = k
    · simp [same]
    · rw [if_neg same, beq_false_of_ne same, if_neg fun both => same both.2]
  · rw [List.getElem?_set_ne (Ne.symm own), old, if_neg fun both => own both.1]

end TaskTracker

namespace Registry

lemma unregister (R : Registry tr) (home : tr.home x = some m) (own : task cfg x = some k)
    (fits : tr.Fits x) (past : ¬ tr.broker.Live x) : Registry (tr.unregister m k)  where
  home y n known := by
    have := R.home y n known
    exact ⟨this.1, by simpa [TaskTracker.unregister] using this.2⟩
  maps j n job := by
    have old : tr.jobs j = some n := by
      rcases tr.jobs_unregister m k j with same | ⟨-, none, -⟩
      · rwa [same] at job
      · rw [none] at job
        cases job
    simpa [TaskTracker.unregister] using R.maps j n old
  goroutines := R.goroutines
  found y j n live owned homeY := by
    obtain ⟨job, entry⟩ := R.found y j n live owned homeY
    obtain ⟨jobFits, entryFits⟩ := fits m home k own
    have other : ¬ (n = m ∧ j = k) := by
      rintro ⟨rfl, rfl⟩
      rw [entry] at entryFits
      rcases entryFits with none | same
      · cases none
      · cases same
        exact past live
    constructor
    · rcases tr.jobs_unregister m k j.jobId with same | ⟨sameJob, -, empty⟩
      · rw [same, job]
      · rw [← sameJob, job] at jobFits
        rcases jobFits with none | same
        · cases none
        · cases same
          rw [empty j fun same => other ⟨rfl, same⟩] at entry
          cases entry
    · rw [tr.lookup_unregister, if_neg other, entry]

lemma registered (R : Registry tr) (known : x ∈ tr.broker.created) (own : task cfg x = some k)
    (free : ∀ y, y ≠ x → tr.broker.Live y → (tr.home y).isSome = true → task cfg y ≠ some k) :
    Registry (tr.registered k x) := by
  have bound := tr.target_le (k := k) R.maps
  have grows : tr.maps.length ≤ (tr.registered k x).maps.length ∧
      tr.target k < (tr.registered k x).maps.length := by
    obtain ⟨maps, eq, below, longer, -⟩ := maps_registered bound
    rw [eq, length_set]
    exact ⟨longer, below⟩
  have homeX : (tr.registered k x).home x = some (tr.target k) := update_self _ _ _
  have job : (tr.registered k x).jobs k.jobId = some (tr.target k) := update_self _ _ _
  have homes : ∀ y ≠ x, (tr.registered k x).home y = tr.home y :=
    fun y other => update_of_ne other _ _
  have jobs : ∀ j ≠ k.jobId, (tr.registered k x).jobs j = tr.jobs j :=
    fun j other => update_of_ne other _ _
  refine ⟨fun y n home => ?_, fun j n known => ?_, R.goroutines, fun y j n live owned home => ?_⟩
  · by_cases same : y = x
    · subst same
      rw [homeX] at home
      cases home
      exact ⟨known, grows.2⟩
    · rw [homes y same] at home
      exact ⟨(R.home y n home).1, (R.home y n home).2.trans_le grows.1⟩
  · by_cases same : j = k.jobId
    · rw [same, job] at known
      cases known
      exact grows.2
    · rw [jobs j same] at known
      exact (R.maps j n known).trans_le grows.1
  · rw [lookup_registered bound]
    by_cases same : y = x
    · subst same
      rw [own] at owned
      cases owned
      rw [homeX] at home
      cases home
      exact ⟨job, if_pos ⟨rfl, rfl⟩⟩
    · rw [homes y same] at home
      obtain ⟨oldJob, entry⟩ := R.found y j n live owned home
      have other : j ≠ k := by
        rintro rfl
        exact free y same live (by simp [home]) owned
      rw [if_neg fun both => other both.2]
      refine ⟨?_, entry⟩
      by_cases sameJob : j.jobId = k.jobId
      · rw [sameJob] at oldJob ⊢
        rw [job, target, oldJob, getD_some]
      · rw [jobs _ sameJob, oldJob]

lemma deliver (R : Registry tr) (past : ∀ e ∈ evs, ∀ x, e.closes x = true → ¬ tr.broker.Live x)
    (fits : ∀ e ∈ evs, ∀ x, e.closes x = true → tr.Fits x) (h : deliver evs os tr = some u) :
    Registry u := by
  refine (deliver_rule
    (I := fun _ v => Registry v ∧ ∀ e ∈ evs, ∀ x, e.closes x = true → v.Fits x) ⟨R, fits⟩
    (fun v w e _ o known mem _ writes noted => ?_) h).1.1
  obtain ⟨R, fits⟩ := known
  cases noted with
  | nothing => exact ⟨R, fits⟩
  | result => exact ⟨⟨R.home, R.maps, R.goroutines, R.found⟩, fits⟩
  | @closed _ x _ closes completed =>
    have ended : ¬ v.broker.Live x := by
      rw [writes.broker]
      exact past e mem x closes
    cases completed with
    | unregistered => exact ⟨R, fits⟩
    | @ended m k home own =>
      exact ⟨R.unregister home own (fits e mem x closes) ended,
        fun d made y ends => (fits d made y ends).unregister m k⟩
    | @cancelled m k s home own =>
      have R := R.unregister home own (fits e mem x closes) ended
      exact ⟨⟨R.home, R.maps, R.goroutines, R.found⟩,
        fun d made y ends => (fits d made y ends).unregister m k⟩

end Registry

namespace TaskTracker

/-- Somebody works on the task: a registered session that has not ended, or the tracker. -/
def Worked (tr : TaskTracker cfg) (k : TaskKey) : Prop :=
  tr.Settling k ∨ ∃ x, tr.broker.Live x ∧ task cfg x = some k ∧ (tr.home x).isSome = true

lemma Worked.mono (h : tr.Worked k) (broker : u.broker = tr.broker)
    (batch : k ∈ tr.batch.map (·.key) → k ∈ u.batch.map (·.key))
    (goroutines : ∀ g ∈ tr.goroutines, g ∈ u.goroutines)
    (home : ∀ x, (tr.home x).isSome = true → (u.home x).isSome = true) : u.Worked k := by
  rcases h with (mem | ⟨g, mem, rest⟩) | ⟨x, live, own, registered⟩
  · exact .inl (.inl (batch mem))
  · exact .inl (.inr ⟨g, goroutines g mem, by rwa [broker]⟩)
  · exact .inr ⟨x, by rwa [broker], own, home x registered⟩

end TaskTracker

structure Tended (setup : Setup) (tr : TaskTracker cfg) : Prop extends Registry tr where
  unique : tr.store.UniqueKeys
  worked : ∀ k, tr.store.Leased setup.identity k → tr.Worked k

namespace Tended

lemma init : Tended setup (init : TaskTracker cfg) where
  toRegistry := .init
  unique := nodup_nil
  worked k leased := by simp [Store.Leased, TaskTracker.init, Store.empty] at leased

lemma terminal_stays (lasting : Lasting (isTask cfg) tr.broker act) (h : Step tr.broker act t)
    (known : x ∈ tr.broker.created) (own : task cfg x = some k)
    (past : (tr.broker.sessions x).status.terminal = true) :
    (t.sessions x).status.terminal = true := by
  by_contra alive
  have before : tr.broker.Live x :=
    Registry.live_before lasting h known own ⟨created_of_step h known, by simpa using alive⟩
  rw [before.2] at past
  cases past

lemma unleased_of_answer (unique : tr.store.UniqueKeys) (works : ∀ o ∈ os, o.fails = false)
    (own : task cfg x = some k) (registered : (tr.home x).isSome = true)
    (closed : ∃ e ∈ evs, e.closes x = true)
    (answer : tr.isCancelled k.jobId = true ∨ .updateTaskResult x ∈ evs)
    (h : deliver evs os tr = some u) : u.store.Unleased k := by
  have working : ∀ o, o ∈ os ∨ o = {} → o.fails = false := by
    rintro o (mem | rfl)
    · exact works o mem
    · rfl
  rcases answer with cancelled | result
  · obtain ⟨e, mem, closes⟩ := closed
    refine unleased_of_deliver mem (fun v w o answer writes noted => ?_) h
    cases noted with
    | nothing silent =>
      rw [silent x] at closes
      cases closes
    | result => cases closes
    | @closed _ y _ same completed =>
      have eq : y = x := by
        cases e with
        | recordExecution z final =>
          simp only [Event.closes, Bool.and_eq_true, decide_eq_true_eq] at same closes
          exact same.1.symm.trans closes.1
        | _ => cases closes
      subst eq
      have cancelled : v.isCancelled k.jobId = true := by
        rw [isCancelled, writes.cancelled]
        exact cancelled
      cases completed with
      | unregistered missing =>
        rw [writes.home, own] at missing
        rcases missing with none | none
        · rw [none] at registered
          cases registered
        · cases none
      | ended _ owned going =>
        rw [own] at owned
        cases owned
        rw [cancelled] at going
        cases going
      | cancelled _ owned _ written =>
        rw [own] at owned
        cases owned
        exact unleased_of_write (writes.store.uniqueKeys unique) (working o answer) written
  · refine unleased_of_deliver result (fun v w o answer writes noted => ?_) h
    cases noted with
    | nothing _ none => exact absurd own (none x k rfl)
    | result owned written =>
      rw [own] at owned
      cases owned
      exact unleased_of_write (writes.store.uniqueKeys unique) (working o answer) written
    | closed closes => cases closes

section

variable (T : Tended setup tr)
include T

lemma turn (tending : Tending setup tr (.broker act os))
    (h : tr.turn act os = some u) : Tended setup u := by
  obtain ⟨lasting, works, ends⟩ := tending
  obtain ⟨t, taken, stepped, delivered⟩ := turn_cases h
  have writes := deliver_writes delivered
  have R := (T.toRegistry.stepped lasting stepped).deliver
    (fun e mem x closes live => by
      have past := terminal_of_closed stepped mem closes
      rw [live.2] at past
      cases past)
    (fun e mem x closes => by
      by_cases known : x ∈ tr.broker.created
      · exact (ends t taken x known ⟨e, mem, closes⟩).1
      · exact fun m home => absurd (T.home x m home).1 known) delivered
  refine ⟨R, writes.store.uniqueKeys T.unique, fun k leased => ?_⟩
  have frame : ({ tr with broker := t } : TaskTracker cfg).Worked k → u.Worked k := fun worked =>
    worked.mono writes.broker (by rw [writes.batch]; exact id)
      (by rw [writes.goroutines]; exact fun _ => id) (by rw [writes.home]; exact fun _ => id)
  rcases T.worked k (writes.store.leased leased) with
    (mem | ⟨g, mem, reports, own, past⟩) | ⟨x, live, own, registered⟩
  · exact frame (.inl (.inl mem))
  · exact frame (.inl (.inr ⟨g, mem, reports, own,
      terminal_stays lasting stepped (T.goroutines g mem) own past⟩))
  · by_cases alive : t.Live x
    · exact frame (.inr ⟨x, alive, own, registered⟩)
    · have past : (t.sessions x).status.terminal = true := by
        by_contra going
        exact alive ⟨created_of_step stepped live.1, by simpa using going⟩
      have closed := closed_of_step stepped live past
      have marked : tr.isCancelled k.jobId = true ∨ .updateTaskResult x ∈ tr.broker.news t →
          u.Worked k := fun answer =>
        absurd leased ((@unleased_of_answer _ { tr with broker := t } _ _ _ _ _ T.unique works own
          registered closed answer delivered).not_leased _)
      rcases (ends t taken x live.1 closed).2 live registered with
        ⟨g, mem, rfl, reports⟩ | ⟨j, owned, cancelled⟩ | result
      · exact frame (.inl (.inr ⟨g, mem, reports, own, past⟩))
      · rw [own] at owned
        cases owned
        exact marked (.inl cancelled)
      · exact marked (.inr result)

lemma plain (taken : Broker.step tr.broker act = some t)
    (plain : (∃ x, act = .addSession x) ∨ (∃ x ctx, act = .schedule x ctx) ∨
      ∃ a x, act = .register a x) : Tended setup { tr with broker := t } := by
  obtain ⟨turned, quiet⟩ := turn_eq taken plain
  refine T.turn ⟨?_, by simp, fun s again x _ closed => ?_⟩ turned
  · rcases plain with ⟨x, rfl⟩ | ⟨x, ctx, rfl⟩ | ⟨a, x, rfl⟩ <;> trivial
  · rw [taken] at again
    cases again
    obtain ⟨e, mem, closes⟩ := closed
    rw [quiet e mem x] at closes
    cases closes

lemma register (live : tr.broker.Live x) (own : task cfg x = some k)
    (free : ∀ y, y ≠ x → tr.broker.Live y → (tr.home y).isSome = true → task cfg y ≠ some k) :
    Tended setup (tr.registered k x) := by
  refine ⟨T.toRegistry.registered live.1 own free, T.unique, fun j leased => ?_⟩
  refine (T.worked j leased).mono rfl id (fun _ => id) fun y registered => ?_
  by_cases same : y = x
  · simp [TaskTracker.registered, same]
  · simpa [TaskTracker.registered, update_of_ne same] using registered

lemma rows (unique : s.UniqueKeys)
    (leased : ∀ k, s.Leased setup.identity k → tr.store.Leased setup.identity k) :
    Tended setup { tr with store := s } :=
  ⟨⟨T.home, T.maps, T.goroutines, T.found⟩, unique, fun k held => T.worked k (leased k held)⟩

lemma free_of_step (taken : Broker.step tr.broker act = some t)
    (lasting : Lasting (isTask cfg) tr.broker act) (free : tr.Free k) (y : SessionPtr)
    (live : t.Live y) (registered : (tr.home y).isSome = true) : task cfg y ≠ some k := by
  intro own
  obtain ⟨m, home⟩ := isSome_iff_exists.mp registered
  have known := (T.home y m home).1
  exact free y known (Registry.live_before lasting (step_cases taken).2 known own live) registered own

lemma process (tending : Tending setup tr (.process x c)) (h : tr.process setup x c = some u) :
    Tended setup u := by
  obtain ⟨row, rest, batch, outcome⟩ := processed h
  have tending := tending row (by simp [batch])
  have split : ∀ k, k ∈ tr.batch.map (·.key) → k = row.key ∨ k ∈ rest.map (·.key) := by
    intro k mem
    rw [batch] at mem
    exact mem_cons.mp mem
  cases outcome with
  | shardFailed divides made =>
    rw [if_pos divides] at tending
    exact absurd tending.1 ((createShards_spec made).2 rfl)
  | sharded divides made written =>
    rw [if_pos divides] at tending
    have grown := (createShards_spec made).1
    have settled := settles_write written
    have unleased := unleased_of_write (grown.unique T.unique) tending.2 written
    refine ⟨⟨T.home, T.maps, T.goroutines, T.found⟩, settled.uniqueKeys (grown.unique T.unique),
      fun k leased => ?_⟩
    refine (T.worked k (grown.leased _ k (settled.leased leased))).mono rfl (fun mem => ?_)
      (fun _ => id) fun _ => id
    refine (split k mem).resolve_left fun same => ?_
    exact unleased.not_leased _ (same ▸ leased)
  | unknownPool whole unknown =>
    rw [whole] at tending
    rw [tending.1] at unknown
    cases unknown
  | nameInUse whole used =>
    rw [whole] at tending
    rw [tending.2.1] at used
    cases used
  | cancelled whole _ _ cancelled =>
    rw [whole] at tending
    rw [tending.2.2.1] at cancelled
    cases cancelled
  | @launched t _ whole fits taken =>
    have own := fits.1
    rw [whole] at tending
    obtain ⟨-, -, -, free⟩ := tending
    have T' := T.plain taken (.inl ⟨x, rfl⟩)
    have live : t.Live x := by
      cases (step_cases taken).2
      exact ⟨mem_cons_self, by simp [State.newSession, ExecutionStatus.terminal]⟩
    have T' := T'.register live own fun y _ => T.free_of_step taken trivial free y
    refine ⟨⟨T'.home, T'.maps, fun g mem => ?_, T'.found⟩, T'.unique, fun k leased => ?_⟩
    · rcases mem_append.mp mem with old | new
      · exact T'.goroutines g old
      · rw [mem_singleton.mp new]
        exact live.1
    · by_cases same : k = row.key
      · subst same
        exact .inr ⟨x, live, own, by simp [registered]⟩
      · exact (T'.worked k leased).mono rfl (fun mem => (split k mem).resolve_left same)
          (fun _ => mem_append_left _) fun _ => id

end

lemma mem_or_eq {α : Type} {l : List α} {a b : α} (h : l[i]? = some a) (mem : b ∈ l) :
    b = a ∨ b ∈ l.eraseIdx i := by
  obtain ⟨bound, rfl⟩ := List.getElem?_eq_some_iff.mp h
  exact mem_cons.mp ((getElem_cons_eraseIdx_perm bound).mem_iff.mpr mem)

lemma goroutine {ctxDone : Bool} {o : Answer} (T : Tended setup tr)
    (tending : Tending setup tr (.goroutine i ctxDone o)) (h : tr.goroutine i ctxDone o = some u) :
    Tended setup u := by
  cases ran h with
  | @returned g found silent =>
    refine ⟨⟨T.home, T.maps, fun g mem => T.goroutines g (mem_of_mem_eraseIdx mem), T.found⟩,
      T.unique, fun k leased => ?_⟩
    rcases T.worked k leased with (mem | ⟨g', mem, reports, own, past⟩) | live
    · exact .inl (.inl mem)
    · rcases mem_or_eq found mem with rfl | still
      · have failed := (tending g' found reports past k own leased).1
        rw [silent reports (by simp [own])] at failed
        cases failed
      · exact .inl (.inr ⟨g', still, reports, own, past⟩)
    · exact .inr live
  | @reported g j s found own _ written =>
    have settled := settles_write written
    refine ⟨⟨T.home, T.maps, fun g mem => T.goroutines g (mem_of_mem_eraseIdx mem), T.found⟩,
      settled.uniqueKeys T.unique, fun k leased => ?_⟩
    have before := settled.leased leased
    rcases T.worked k before with (mem | ⟨g', mem, reports, owned, past⟩) | live
    · exact .inl (.inl mem)
    · rcases mem_or_eq found mem with rfl | still
      · rw [own] at owned
        cases owned
        have works := (tending g' found reports past j own before).2
        exact absurd leased ((unleased_of_write T.unique works written).not_leased _)
      · exact .inl (.inr ⟨g', still, reports, owned, past⟩)
    · exact .inr live
  | @scheduled g t found taken =>
    have T' := T.plain taken (.inr (.inl ⟨_, _, rfl⟩))
    have known := T'.goroutines g (mem_of_getElem? found)
    refine ⟨⟨T'.home, T'.maps, fun g' mem => ?_, T'.found⟩, T'.unique, fun k leased => ?_⟩
    · rcases mem_or_eq_of_mem_set mem with old | rfl
      · exact T'.goroutines g' old
      · exact known
    · rcases T'.worked k leased with (mem | ⟨g', mem, reports, own, past⟩) | live
      · exact .inl (.inl mem)
      · rcases mem_or_eq found mem with rfl | still
        · have bound := (List.getElem?_eq_some_iff.mp found).1
          exact .inl (.inr ⟨_, mem_set bound _, reports, own, past⟩)
        · rw [← eraseIdx_set_eq] at still
          exact .inl (.inr ⟨g', mem_of_mem_eraseIdx still, reports, own, past⟩)
      · exact .inr live

lemma reported (T : Tended setup tr) (tending : Tending setup tr (.register a x o))
    (h : step setup tr (.register a x o) = some u) : Tended setup u := by
  obtain ⟨v, turned, reconnected⟩ := bind_eq_some_iff.mp h
  obtain ⟨t, taken, stepped, -⟩ := turn_cases turned
  rw [(turn_eq taken (.inr (.inr ⟨a, x, rfl⟩))).1] at turned
  cases turned
  have T' := T.plain taken (.inr (.inr ⟨a, x, rfl⟩))
  have status : ∀ {k s}, TaskStore.reconnectTask tr.store k setup.identity = some s →
      tr.store.statusOf k = some .leased := by
    intro k s leased
    unfold TaskStore.reconnectTask at leased
    split at leased
    · assumption
    · cases leased
  cases TaskTracker.reconnected reconnected with
  | plain | refused => exact T'
  | killed own leased cancelled =>
    have going := (tending _ own (status leased)).1
    rw [show tr.isCancelled _ = true from cancelled] at going
    cases going
  | @leased k s own leased =>
    have free := (tending k own (status leased)).2
    have live : t.Live x := by
      cases stepped
      exact ⟨mem_cons_self, by simp [State.registered, ExecutionStatus.terminal]⟩
    have T' := T'.register live own fun y _ => T.free_of_step taken trivial free y
    obtain ⟨keys, -, held⟩ := reconnectTask_cases leased
    refine ⟨⟨T'.home, T'.maps, T'.goroutines, T'.found⟩, ?_, fun j leased => ?_⟩
    · have unique : s.UniqueKeys := by
        rw [Store.UniqueKeys, keys]
        exact T.unique
      exact unique
    · rcases held _ j leased with old | ⟨rfl, -⟩
      · exact (T'.worked j old).mono rfl id (fun _ => id) fun _ => id
      · exact .inr ⟨x, live, own, by simp [registered]⟩

lemma step {act : Action} (T : Tended setup tr) (tending : Tending setup tr act)
    (h : step setup tr act = some u) : Tended setup u := by
  cases act with
  | broker act os =>
    simp only [Tracker.step] at h
    split at h
    · exact T.turn tending h
    · cases h
  | create r now =>
    obtain ⟨⟨s, key, count⟩, created, rfl⟩ := map_eq_some_iff.mp h
    have grown := createTask_grown created
    exact T.rows (grown.unique T.unique) (grown.leased _)
  | poll =>
    simp only [Tracker.step, poll] at h
    split at h
    · next idle =>
      cases h
      refine ⟨⟨T.home, T.maps, T.goroutines, T.found⟩, ?_, fun k leased => ?_⟩
      · rw [Store.UniqueKeys, pollTasksOnce_keys]
        exact T.unique
      · rcases pollTasksOnce_leased leased with old | ⟨-, mem⟩
        · exact (T.worked k old).mono rfl (by simp [idle.2]) (fun _ => id) fun _ => id
        · exact .inl (.inl mem)
    · cases h
  | process x c => exact T.process tending h
  | goroutine i ctxDone o => exact T.goroutine tending h
  | register a x o => exact T.reported tending h
  | cancelRows jobId now =>
    cases h
    have settled := Settles.cancelJob (s := tr.store) jobId now
    exact T.rows (settled.uniqueKeys T.unique) fun _ => settled.leased
  | cancelJob jobId =>
    cases h
    unfold TaskTracker.cancelJob
    dsimp only
    split <;> exact ⟨⟨T.home, T.maps, T.goroutines, T.found⟩, T.unique, T.worked⟩
  | renewLeaser identity now | addPool name =>
    cases h
    exact ⟨⟨T.home, T.maps, T.goroutines, T.found⟩, T.unique, T.worked⟩
  | releaseExpiredLeaser lastLeaseTime =>
    cases h
    refine ⟨⟨T.home, T.maps, T.goroutines, T.found⟩, ?_, fun k leased => ?_⟩
    · simp only [releaseExpiredLeaser]
      rw [Store.UniqueKeys, releaseLeases_keys]
      exact T.unique
    · exact T.worked k (releaseLeases_leased leased)
  | elsewhere op =>
    simp only [Tracker.step] at h
    split at h
    · next other =>
      obtain ⟨s, stepped, rfl⟩ := map_eq_some_iff.mp h
      rcases op with (⟨r, now⟩ | leaser | ⟨k, result, clock⟩) | ⟨jobId, now⟩ | expired | ⟨k, leaser⟩
      · cases other
      · cases stepped
        refine T.rows ?_ fun k leased => ?_
        · rw [Store.UniqueKeys, pollTasksOnce_keys]
          exact T.unique
        · refine (pollTasksOnce_leased leased).resolve_right fun both => ?_
          simp [foreign, both.1] at other
      · have settled := Settles.updateTaskFinalResult stepped
        exact T.rows (settled.uniqueKeys T.unique) fun _ => settled.leased
      · cases other
      · cases other
      · obtain ⟨keys, -, held⟩ := reconnectTask_cases stepped
        refine T.rows ?_ fun j leased => (held _ j leased).resolve_right fun both => ?_
        · rw [Store.UniqueKeys, keys]
          exact T.unique
        · simp [foreign, both.2] at other
    · cases h

end Tended

lemma tended_of_reachable
    (h : Reachable (step setup) (Tending setup) init tr) : Tended setup tr :=
  h.invariant .init fun _ _ _ T tending taken => T.step tending taken

lemma goroutine_marks (unique : tr.store.UniqueKeys) (found : tr.goroutines[i]? = some g)
    (reports : g.reports = true) (own : task cfg g.session = some k)
    (past : (tr.broker.sessions g.session).status.terminal = true)
    (loops : (tr.broker.sessions g.session).loops = [])
    (failed : (tr.broker.sessions g.session).schedulingErr.isSome = true) :
    ∃ u, step setup tr (.goroutine i false {}) = some u ∧ u.store.Unleased k := by
  have returns : tr.returns g.session = true := by
    unfold returns
    rcases ExecutionStatus.settled_of_terminal past with status | status <;> rw [status]
  have idle : (g.generation.any fun n =>
      (tr.broker.sessions g.session).loops.any (·.generation = n)) = false := by
    cases g.generation <;> simp [loops]
  obtain ⟨s, written⟩ : ∃ s, write tr.store k cancelledResult {} = some s := by
    unfold write
    split
    · exact ⟨_, rfl⟩
    · exact ⟨_, rfl⟩
  refine ⟨{ tr with goroutines := tr.goroutines.eraseIdx i, store := s }, ?_,
    unleased_of_write unique rfl written⟩
  simp [step, goroutine, found, idle, returns, finish, own, reports,
    failed, written]

/-- A row that the broker has leased has a registered session that has not ended, once the
callback and the goroutine of an ended session are done with it; and such a goroutine marks
the row. -/
theorem lease_worked {k : TaskKey} (h : Reachable (step setup) (Tending setup) init tr)
    (leased : tr.store.Leased setup.identity k) : (¬ tr.Settling k →
      ∃ x, tr.leasedSession k = some x ∧ task cfg x = some k ∧ tr.broker.Live x) ∧
    ∀ i g, tr.goroutines[i]? = some g → g.reports = true → task cfg g.session = some k →
      (tr.broker.sessions g.session).status.terminal = true →
      (tr.broker.sessions g.session).loops = [] →
      (tr.broker.sessions g.session).schedulingErr.isSome = true →
      ∃ u, step setup tr (.goroutine i false {}) = some u ∧ ¬ u.store.Leased setup.identity k := by
  have T := tended_of_reachable h
  refine ⟨fun settled => ?_, fun i g found reports own past loops failed => ?_⟩
  · obtain ⟨x, live, own, registered⟩ := (T.worked k leased).resolve_left settled
    exact ⟨x, T.leasedSession live own registered, own, live⟩
  · obtain ⟨u, taken, unleased⟩ :
        ∃ u, step setup tr (.goroutine i false {}) = some u ∧ u.store.Unleased k :=
      goroutine_marks T.unique found reports own past loops failed
    exact ⟨u, taken, unleased.not_leased _⟩

def running (cfg : Config) (x : SessionPtr) (a : AgentPtr) : List Action :=
  arrives ++ turns (joins a) ++ runsOn x a ++ turns (starts cfg x a) ++ [.goroutine 0 false {}]

theorem lease_worked_running :
    ∃ tr : TaskTracker taskPool, Reachable (step broker) (Tending broker) init tr ∧
      tr.store.Leased "broker" ⟨[], "p"⟩ ∧ ¬ tr.Settling ⟨[], "p"⟩ ∧
        ∃ x, tr.leasedSession ⟨[], "p"⟩ = some x ∧ task taskPool x = some ⟨[], "p"⟩ ∧
          tr.broker.Live x := by
  obtain ⟨tr, reached, leased, settled⟩ := exists_of_run (step broker)
    (Tending broker) (init : TaskTracker taskPool) (running taskPool 0 0)
    (fun tr => tr.store.Leased "broker" ⟨[], "p"⟩ ∧ ¬ tr.Settling ⟨[], "p"⟩) (by decide +kernel)
  exact ⟨tr, reached, leased, settled, (lease_worked reached leased).1 settled⟩

/-- The row is leased, and the broker has nothing that is about the task any more. -/
def Orphaned (setup : Setup) (tr : TaskTracker cfg) (k : TaskKey) : Prop :=
  tr.store.Leased setup.identity k ∧ tr.batch = [] ∧ tr.goroutines = [] ∧
    tr.leasedSession k = none ∧ ∀ x ∈ tr.broker.created, ¬ tr.broker.Live x

instance (tr : TaskTracker cfg) (k : TaskKey) : Decidable (Orphaned setup tr k) :=
  inferInstanceAs (Decidable (_ ∧ tr.batch = [] ∧ tr.goroutines = [] ∧ _ ∧
    ∀ x ∈ tr.broker.created, _))

def sharding : Setup := { broker with unmarshal := fun _ => ⟨2, -1, false, ""⟩ }

/-- The pool of the task is not known; the second shard cannot be created; the job is cancelled
between the lease and the callback; the session is refused quota when it is scheduled again
after its worker was lost. -/
theorem lease_orphaned :
    (∃ tr : TaskTracker taskPool, Reachable (step broker) (Unblocked broker) init tr ∧
      Orphaned broker tr ⟨[], "p"⟩ ∧ tr.broker.created = []) ∧
    (∃ tr : TaskTracker taskPool, Reachable (step sharding) (Unblocked sharding) init
      tr ∧ Orphaned sharding tr ⟨[], "p"⟩ ∧ tr.polling = false) ∧
    (∃ tr : TaskTracker taskPool, Reachable (step broker) (Unblocked broker) init tr ∧
      Orphaned broker tr ⟨[], "p"⟩ ∧ tr.isCancelled "p" = true) ∧
    ∃ tr : TaskTracker taskPool, Reachable (step broker) (Unblocked broker) init tr ∧
      Orphaned broker tr ⟨[], "p"⟩ ∧ .recordExecution 0 .noQuota ∈ tr.broker.events := by
  refine ⟨?_, ?_, ?_, ?_⟩
  · exact exists_of_run _ _ _
      (List.flatten [arrives.tail, [.poll, .process 0 {}]]) _ (by decide +kernel)
  · exact exists_of_run _ _ _
      (List.flatten [arrives, [.poll, .process 0 { failedShard := some 1 }]]) _ (by decide +kernel)
  · exact exists_of_run _ _ _
      (List.flatten [arrives, [.poll, .cancelJob "p", .process 0 {}, .goroutine 0 false {}],
        turns [.loop 0 0 (.quota true), .scheduler "pool" .addSession 0, .loop 0 0 .ctxDone,
        .scheduler "pool" .removeSession 0, .loop 0 0 .cancelConfirm],
        [.goroutine 0 false {}]]) _ (by decide +kernel)
  · exact exists_of_run _ _ _
      (List.flatten [running taskPool 0 0, turns (loses 0 0), turns [.loop 0 0 (.quota false)]]) _
      (by decide +kernel)

end Velda.Tracker
