import Velda.Tracker.Executions
import Velda.Tracker.Snapshots

/-! How long the snapshot of a job lives. The timer is started by the session of the root task,
which knows nothing of the other tasks, of other jobs with the snapshot, or of what is
submitted later; where all of these have ended by then, nothing starts without its
snapshot. -/
namespace Velda.Tracker
open Lib Broker TaskStore List Option TaskTracker Snapshots

variable {cfg : Config} {tr u : TaskTracker cfg} {setup : Setup} {m : Mounts}

def Uses (m : Mounts) (s : Store) (root : Task) (snap : Snapshot) : Prop :=
  root.key.parentId = [] ∧ (m.workload root.payload).snapshotName = snap.2 ∧
    ∃ t ∈ s.tasks, t.key.jobId = root.key.jobId ∧ t.instanceId = snap.1

instance (s : Store) (root : Task) (snap : Snapshot) : Decidable (Uses m s root snap) :=
  inferInstanceAs (Decidable (_ ∧ _ ∧ ∃ t ∈ s.tasks, _))

def Over (m : Mounts) (s : Store) (snap : Snapshot) : Prop :=
  ∀ root ∈ s.tasks, Uses m s root snap →
    ∀ t ∈ s.tasks, t.key.jobId = root.key.jobId → t.status.terminal = true

instance (s : Store) (snap : Snapshot) : Decidable (Over m s snap) :=
  inferInstanceAs (Decidable (∀ root ∈ s.tasks, _ → ∀ t ∈ s.tasks, _ → _))

def Snapshots.spent (m : Mounts) (s : Snapshots cfg) : List Snapshot :=
  s.timers.map (snapshot m cfg) ++ s.deleted

/-- A new task has none of the snapshots in `spent`, by its own name for the root of a new job, or
by its job. -/
def Clear (m : Mounts) (spent : List Snapshot) (s : Store) (r : TaskStore.SessionRequest) : Prop :=
  if r.taskId.parentId = [] then
    (∀ t ∈ s.tasks, t.key.jobId ≠ r.taskId.taskId) ∧
      (r.instanceId, (m.workload r.workload).snapshotName) ∉ spent
  else ∀ snap ∈ spent, ∀ root ∈ s.tasks, root.key = ⟨[], r.taskId.jobId⟩ →
    (m.workload root.payload).snapshotName = snap.2 →
      r.instanceId ≠ snap.1 ∧ ¬ Uses m s root snap

instance (spent : List Snapshot) (s : Store) (r : TaskStore.SessionRequest) :
    Decidable (Clear m spent s r) := by
  unfold Clear
  infer_instance

def Named (m : Mounts) (s : Store) (k : TaskKey) (snap : Snapshot) : Prop :=
  (∃ root ∈ s.tasks, root.key = ⟨[], k.jobId⟩ ∧ (m.workload root.payload).snapshotName = snap.2) ∧
    ∃ t ∈ s.tasks, t.key = k ∧ t.instanceId = snap.1

instance (s : Store) (k : TaskKey) (snap : Snapshot) : Decidable (Named m s k snap) :=
  inferInstanceAs (Decidable ((∃ root ∈ s.tasks, _) ∧ ∃ t ∈ s.tasks, _))

def active : Event → Option SessionPtr
  | .updateTaskResult x | .sendSession _ x => some x
  | _ => none

/-- Results and starts are for tasks that have not ended, and when a timer is started the jobs with
the snapshot are over. -/
def Orderly (m : Mounts) : List Event → List Answer → TaskTracker cfg → Prop
  | [], _, _ => True
  | e :: rest, os, tr =>
    (∀ x ∈ active e, ∀ k ∈ task cfg x, tr.store.Unended k) ∧
    ∀ u ∈ tr.told (os.headD {}) e,
      (∀ x ∈ tr.deletes m e, Over m u.store (snapshot m cfg x)) ∧ Orderly m rest os.tail u

instance decidableOrderly : (evs : List Event) → (os : List Answer) → (tr : TaskTracker cfg) →
    Decidable (Orderly m evs os tr)
  | [], _, _ => isTrue trivial
  | e :: rest, os, tr =>
    have (u : TaskTracker cfg) : Decidable (Orderly m rest os.tail u) :=
      decidableOrderly rest os.tail u
    inferInstanceAs (Decidable ((∀ x ∈ active e, ∀ k ∈ task cfg x, tr.store.Unended k) ∧
      ∀ u ∈ tr.told (os.headD {}) e,
        (∀ x ∈ tr.deletes m e, Over m u.store (snapshot m cfg x)) ∧ Orderly m rest os.tail u))

lemma Clear.free {spent : List Snapshot} (clear : Clear m spent s r)
    (top : r.taskId.parentId = []) : s.find r.taskId = none := by
  rw [Clear, if_pos top] at clear
  by_contra found
  obtain ⟨row, found⟩ := ne_none_iff_exists'.mp found
  refine clear.1 row (find_mem found) ?_
  rw [find_key found, TaskKey.jobId, top]
  rfl

lemma eq_of_root {k : TaskKey} (top : k.parentId = []) : k = ⟨[], k.jobId⟩ := by
  obtain ⟨parentId, taskId⟩ := k
  obtain rfl : parentId = [] := top
  rfl

variable {x : SessionPtr} {row : Task} {o : Answer} {c : Callback} {os : List Answer}

section Rows
variable {s s' : Store} {snap : Snapshot} {k : TaskKey}
  {New : TaskKey × Int × List UInt8 → Prop}

lemma Over.lasts (past : Over m s snap) (lasts : Lasts New s s')
    (apart : ∀ l, New l → ∀ root ∈ s'.tasks, root.key.jobId = l.1.jobId → ¬ Uses m s' root snap) :
    Over m s' snap := by
  intro root mem uses t ht job
  have old : ∀ t ∈ s'.tasks, root.key.jobId = t.key.jobId → ∃ t₀ ∈ s.tasks, t₀.Lasts t :=
    fun t ht same => (lasts.old t ht).resolve_left fun new =>
      apart t.label new root mem same uses
  obtain ⟨root₀, mem₀, lastsRoot⟩ := old root mem rfl
  obtain ⟨top, name, v, hv, sameJob, atInstance⟩ := uses
  obtain ⟨v₀, hv₀, lastsV⟩ := old v hv sameJob.symm
  obtain ⟨t₀, ht₀, lastsT⟩ := old t ht job.symm
  refine lastsT.ended (past root₀ mem₀ ⟨?_, ?_, v₀, hv₀, ?_, ?_⟩ t₀ ht₀ ?_)
  · rwa [lastsRoot.key] at top
  · rwa [lastsRoot.payload] at name
  · rwa [lastsV.key, lastsRoot.key] at sameJob
  · rwa [lastsV.instanceId] at atInstance
  · rwa [lastsT.key, lastsRoot.key] at job

lemma Over.lasts_of_none (past : Over m s snap) (lasts : Lasts (fun _ => False) s s') :
    Over m s' snap :=
  past.lasts lasts fun _ new => new.elim

lemma Named.lasts (named : Named m s k snap) (lasts : Lasts New s s') : Named m s' k snap := by
  obtain ⟨⟨root, mem, top, name⟩, t, ht, atKey, atInstance⟩ := named
  obtain ⟨root', mem', lastsRoot⟩ := lasts.kept root mem
  obtain ⟨t', ht', lastsT⟩ := lasts.kept t ht
  refine ⟨⟨root', mem', lastsRoot.key.trans top, ?_⟩, t', ht', lastsT.key.trans atKey,
    lastsT.instanceId.trans atInstance⟩
  rw [lastsRoot.payload]
  exact name

lemma Named.not_over (named : Named m s k snap) (unended : s.Unended k) : ¬ Over m s snap := by
  obtain ⟨⟨root, mem, top, name⟩, t, ht, atKey, atInstance⟩ := named
  intro past
  have job : t.key.jobId = root.key.jobId := by
    rw [atKey, top]
    rfl
  have ended := past root mem ⟨by rw [top], name, t, ht, job, atInstance⟩ t ht job
  rw [unended t ht atKey] at ended
  cases ended

lemma lasts_write (unended : r.cancelled = false → s.Unended k) (h : write s k r o = some s') :
    Lasts New s s' := by
  unfold write at h
  split at h
  · cases h
    exact .refl s
  · exact .updateTaskFinalResult unended h

def Shard (row : Task) (l : TaskKey × Int × List UInt8) : Prop :=
  l.1.parentId = row.key.childrenId ∧ l.2.1 = row.instanceId

lemma appended_createShards {pool : String}
    (h : createShards setup row w pool c n i s = (s', done)) : Appended (Shard row) s s' := by
  refine (createShards_rule .refl .trans (fun i now created => ?_) h).1
  refine (appended_createTask created).mono fun l made => ?_
  obtain ⟨name, rfl, -⟩ := made
  exact ⟨rfl, rfl⟩

end Rows

/-- The events that mean nothing to the tracker and are not the start of a session. -/
def idle : Event → Bool
  | .updateTaskResult _ | .recordExecution .. | .sendSession .. => false
  | _ => true

def Idles (s t : State cfg) : Prop := ∃ l, t.events = l ++ s.events ∧ ∀ e ∈ l, idle e = true

namespace Idles
variable {s t : State cfg}

lemma of_events (same : t.events = s.events) : Idles s t := ⟨[], same, by simp⟩

lemma trans (h : Idles s t) (h' : Idles t v) : Idles s v := by
  obtain ⟨l, added, quiet⟩ := h
  obtain ⟨l', added', quiet'⟩ := h'
  refine ⟨l' ++ l, by rw [added', added, append_assoc], fun e mem => ?_⟩
  exact (mem_append.mp mem).elim (quiet' e) (quiet e)

lemma news (h : Idles s t) : ∀ e ∈ s.news t, idle e = true := by
  obtain ⟨l, added, quiet⟩ := h
  exact State.forall_news added quiet

lemma kill (h : Step s (.kill x force) t) : Idles s t := by
  cases h with
  | killCrash | killRefused => exact .of_events rfl
  | killRunning | killSignal => exact ⟨_, rfl, by simp [idle]⟩

lemma deletes (h : Idles s t) : (s.news t).filterMap (tr.deletes m) = [] := by
  rw [filterMap_eq_nil_iff]
  intro e mem
  have quiet := h.news e mem
  cases e with
  | recordExecution => cases quiet
  | _ => rfl

lemma moved {s : Snapshots cfg} (h : Idles s.tracker.broker u.broker) :
    s.moved m u = { s with tracker := u } := by
  rw [Snapshots.moved, h.deletes, append_nil]

end Idles

namespace TaskTracker

lemma deliver_idle (quiet : ∀ e ∈ evs, idle e = true) : deliver evs os tr = some tr := by
  induction evs generalizing os with
  | nil => rfl
  | cons e rest ih =>
    have told : tr.told (os.headD {}) e = some tr := by
      have quiet := quiet e mem_cons_self
      cases e with
      | updateTaskResult | recordExecution => cases quiet
      | _ => rfl
    rw [deliver, told]
    exact ih fun e mem => quiet e (mem_cons_of_mem _ mem)

lemma lasts_told {New : TaskKey × Int × List UInt8 → Prop}
    (unended : ∀ x, e = .updateTaskResult x → ∀ k ∈ task cfg x, tr.store.Unended k)
    (h : tr.told o e = some u) : Lasts New tr.store u.store := by
  cases noted h with
  | nothing => exact .refl _
  | result own written => exact lasts_write (fun _ => unended _ rfl _ own) written
  | closed _ completed =>
    cases completed with
    | unregistered => exact .refl _
    | ended => exact .of_tasks rfl
    | cancelled _ _ _ written => exact lasts_write (by simp [cancelledResult]) written

lemma deliver_orderly (orderly : Orderly m evs os tr) (h : deliver evs os tr = some u) :
    Lasts (fun _ => False) tr.store u.store ∧
      (∀ x ∈ evs.filterMap (tr.deletes m), Over m u.store (snapshot m cfg x)) ∧
      ∀ a x, .sendSession a x ∈ evs → ∀ k ∈ task cfg x, ∃ s, Lasts (fun _ => False) tr.store s ∧
        s.Unended k := by
  induction evs generalizing os tr with
  | nil =>
    cases h
    exact ⟨.refl _, by simp, by simp⟩
  | cons e rest ih =>
    obtain ⟨v, told, later⟩ := bind_eq_some_iff.mp h
    obtain ⟨unended, after⟩ := orderly
    obtain ⟨timed, orderly⟩ := after v told
    have first : Lasts (fun _ => False) tr.store v.store :=
      lasts_told (fun x same => unended x (by simp [same, active])) told
    have home : v.home = tr.home := (noted told).writes.home
    have same : v.deletes m = tr.deletes m := by
      funext d
      cases d <;> simp only [deletes, home]
    obtain ⟨lasts, started, sent⟩ := ih orderly later
    refine ⟨first.trans lasts, fun x mem => ?_, fun a x mem k own => ?_⟩
    · obtain ⟨d, listed, found⟩ := mem_filterMap.mp mem
      rcases mem_cons.mp listed with rfl | listed
      · exact (timed x found).lasts_of_none lasts
      · exact started x (mem_filterMap.mpr ⟨d, listed, same ▸ found⟩)
    · rcases mem_cons.mp mem with rfl | mem
      · exact ⟨tr.store, .refl _, unended x rfl k own⟩
      · obtain ⟨s, lasts, unended⟩ := sent a x mem k own
        exact ⟨s, first.trans lasts, unended⟩

/-- The outcomes of a callback: rows for the shards of a row, nothing, or a session for it. -/
inductive Dispatched (tr : TaskTracker cfg) (setup : Setup) (x : SessionPtr) (row : Task)
    (u : TaskTracker cfg) : Prop
  | sharded : (setup.unmarshal row.payload).toShard = true → u.broker = tr.broker →
      (tr.store.Unended row.key → Lasts (Shard row) tr.store u.store) → Dispatched tr setup x row u
  | skipped : u.broker = tr.broker → u.store = tr.store → Dispatched tr setup x row u
  | launched : x ∉ tr.broker.created → u.broker.created = x :: tr.broker.created →
      u.broker.events = tr.broker.events → u.store = tr.store → task cfg x = some row.key →
      (cfg.request x).key.instanceId = row.instanceId →
      (tr.isCancelled row.key.jobId = false → (u.home x).isSome = true) → Dispatched tr setup x row u

lemma home_registered (h : (tr.home y).isSome = true) :
    ((tr.registered k x).home y).isSome = true := by
  simp only [registered, Function.update_apply]
  split
  · rfl
  · exact h

lemma Dispatched.idles (h : tr.Dispatched setup x row u) : Idles tr.broker u.broker := by
  cases h with
  | sharded _ broker _ => exact .of_events (by rw [broker])
  | skipped broker _ => exact .of_events (by rw [broker])
  | launched _ _ events => exact .of_events events

lemma dispatched (h : tr.process setup x c = some u) : ∃ row rest, tr.batch = row :: rest ∧
    u.batch.Sublist rest ∧ (∀ y, (tr.home y).isSome = true → (u.home y).isSome = true) ∧
      tr.Dispatched setup x row u := by
  obtain ⟨row, rest, batch, processed⟩ := processed h
  refine ⟨row, rest, batch, ?_⟩
  cases processed with
  | shardFailed divides made =>
    exact ⟨nil_sublist _, fun _ => id,
      .sharded divides rfl fun _ => (appended_createShards made).lasts⟩
  | sharded divides made written =>
    have added := appended_createShards made
    refine ⟨.refl _, fun _ => id, .sharded divides rfl fun unended =>
      added.lasts.trans (lasts_write (fun _ t ht atKey => ?_) written)⟩
    rcases added.old t ht with old | new
    · exact unended t old atKey
    · have own : row.key.parentId = row.key.childrenId := atKey ▸ new.1
      exact absurd own (cons_ne_self _ _).symm
  | unknownPool | nameInUse => exact ⟨.refl _, fun _ => id, .skipped rfl rfl⟩
  | launched _ fits stepped =>
    cases (step_cases stepped).2 with
    | addSession unused _ =>
      exact ⟨.refl _, fun _ => home_registered, .launched unused.1 rfl rfl rfl fits.1 fits.2.1
        fun _ => by simp [registered]⟩
  | cancelled _ fits stepped gone =>
    cases (step_cases stepped).2 with
    | addSession unused _ =>
      exact ⟨.refl _, fun _ => id, .launched unused.1 rfl rfl rfl fits.1 fits.2.1
        fun going => by simp [gone] at going⟩

end TaskTracker

def upkeep : Action → Bool
  | .cancelRows .. | .cancelJob _ | .renewLeaser .. | .addPool _ | .releaseExpiredLeaser _ => true
  | _ => false

namespace TaskTracker

structure Background (tr u : TaskTracker cfg) : Prop where
  store : Lasts (fun _ => False) tr.store u.store
  batch : u.batch = tr.batch
  home : u.home = tr.home
  created : u.broker.created = tr.broker.created
  idles : Idles tr.broker u.broker

lemma Background.of_store (store : Lasts (fun _ => False) tr.store u.store)
    (batch : u.batch = tr.batch) (home : u.home = tr.home) (broker : u.broker = tr.broker) :
    Background tr u :=
  ⟨store, batch, home, by rw [broker], .of_events (by rw [broker])⟩

lemma background_goroutine {ctxDone : Bool} (h : tr.goroutine i ctxDone o = some u) :
    Background tr u := by
  cases ran h with
  | returned => exact .of_store (.refl _) rfl rfl rfl
  | reported _ _ _ written =>
    exact .of_store (lasts_write (by simp [cancelledResult]) written) rfl rfl rfl
  | scheduled _ stepped =>
    cases (step_cases stepped).2
    exact ⟨.refl _, rfl, rfl, rfl, .of_events rfl⟩

lemma background_elsewhere (unique : tr.store.UniqueKeys) (unended : ∀ k result clock, op = .store
      (.report k result clock) → result.cancelled = false → tr.store.Unended k)
    (h : step setup tr (.elsewhere op) = some u) : Background tr u := by
  simp only [Tracker.step] at h
  split at h
  · next other =>
    obtain ⟨s, stepped, rfl⟩ := map_eq_some_iff.mp h
    refine .of_store ?_ rfl rfl rfl
    rcases op with (⟨r, now⟩ | leaser | ⟨k, result, clock⟩) | ⟨jobId, now⟩ | expired | ⟨k, leaser⟩
    · cases other
    · cases stepped
      exact .pollTasksOnce unique leaser
    · exact .updateTaskFinalResult (unended k result clock rfl) stepped
    · cases other
    · cases other
    · exact .reconnectTask stepped
  · cases h

lemma background_upkeep (kind : upkeep act = true) (h : step setup tr act = some u) :
    Background tr u := by
  cases act with
  | cancelRows jobId now =>
    cases h
    exact .of_store (.cancelJob jobId now) rfl rfl rfl
  | cancelJob jobId =>
    cases h
    unfold cancelJob
    dsimp only
    split <;> exact .of_store (.refl _) rfl rfl rfl
  | renewLeaser identity now | addPool name =>
    cases h
    exact .of_store (.refl _) rfl rfl rfl
  | releaseExpiredLeaser lastLeaseTime =>
    cases h
    exact .of_store (.releaseLeases _) rfl rfl rfl
  | _ => cases kind

lemma reported_cases (h : step setup tr (.register a x o) = some u) :
    Lasts (fun _ => False) tr.store u.store ∧ u.batch = tr.batch ∧
      u.broker.created = x :: tr.broker.created ∧ Idles tr.broker u.broker ∧
      (∀ y, (tr.home y).isSome = true → (u.home y).isSome = true) ∧
      ∀ k, Stands k tr.store u.store := by
  obtain ⟨v, turned, reconnects⟩ := bind_eq_some_iff.mp h
  obtain ⟨t, taken, stepped, -⟩ := turn_cases turned
  have same := (turn_eq taken (.inr (.inr ⟨a, x, rfl⟩))).1
  rw [turned] at same
  cases same
  have registers : Idles tr.broker t ∧ t.created = x :: tr.broker.created := by
    cases stepped
    exact ⟨⟨[.reGrantAccess a x], rfl, by simp [idle]⟩, rfl⟩
  cases reconnected reconnects with
  | plain | refused => exact ⟨.refl _, rfl, registers.2, registers.1, fun _ => id, fun _ => .refl _⟩
  | leased _ leased =>
    exact ⟨.reconnectTask leased, rfl, registers.2, registers.1, fun _ => home_registered,
      fun _ => .reconnectTask leased⟩
  | killed _ leased _ killed =>
    obtain ⟨w, -, stepped, delivered⟩ := turn_cases killed
    have kills : Idles t w := .kill stepped
    rw [deliver_idle kills.news] at delivered
    cases delivered
    refine ⟨.reconnectTask leased, rfl, ?_, registers.1.trans kills, fun _ => id,
      fun _ => .reconnectTask leased⟩
    rw [← registers.2]
    cases stepped <;> rfl

end TaskTracker

/-- New tasks have no snapshot that a timer is for or that is gone, a timer is started when the jobs
with its snapshot are over, and tasks that have ended get no result and no start. -/
def Outlasting (m : Mounts) (setup : Setup) (s : Snapshots cfg) : SnapshotAction → Prop
  | .submit _ _ _ r _ _ => Clear m (s.spent m) s.tracker.store r
  | .tracker (.broker act os) _ => ∀ t ∈ Broker.step s.tracker.broker act,
      Orderly m (s.tracker.broker.news t) os { s.tracker with broker := t }
  | .tracker (.process _ _) _ => ∀ row ∈ s.tracker.batch.head?,
      (setup.unmarshal row.payload).toShard = true → s.tracker.store.Unended row.key
  | .tracker (.register _ x _) _ => m.snapshotName x ≠ [] → ∀ k ∈ task cfg x,
      Named m s.tracker.store k (snapshot m cfg x)
  | .tracker (.elsewhere (.store (.report k result _))) _ =>
      result.cancelled = false → s.tracker.store.Unended k
  | _ => True

instance (s : Snapshots cfg) (act : SnapshotAction) : Decidable (Outlasting m setup s act) := by
  induction act using SnapshotAction.casesOn with
  | tracker act found =>
    induction act using Action.casesOn with
    | elsewhere op =>
      induction op using JobOp.casesOn with
      | store op => induction op using Op.casesOn <;> unfold Outlasting <;> infer_instance
      | _ => unfold Outlasting; infer_instance
    | _ => unfold Outlasting; infer_instance
  | _ => unfold Outlasting; infer_instance

/-- The jobs of spent snapshots are over, and sessions have the snapshots of their jobs. -/
structure Kept (m : Mounts) (s : Snapshots cfg) : Prop where
  unique : s.tracker.store.UniqueKeys
  fresh : s.tracker.broker.Fresh
  spent : ∀ snap ∈ s.spent m, Over m s.tracker.store snap
  known : ∀ row ∈ s.tracker.batch, ∃ t ∈ s.tracker.store.tasks, t.label = row.label
  named : ∀ x ∈ s.tracker.broker.created, m.snapshotName x ≠ [] → ∀ k ∈ task cfg x,
    Named m s.tracker.store k (snapshot m cfg x)

lemma mem_of_polled (h : row ∈ (pollTasksOnce s leaser).2) :
    row ∈ (pollTasksOnce s leaser).1.tasks := by
  obtain ⟨t, mem, rfl⟩ := mem_map.mp h
  obtain ⟨ht, chosen⟩ := mem_filter.mp mem
  exact mem_map.mpr ⟨t, ht, if_pos chosen⟩

namespace Kept
variable {s s' : Snapshots cfg}

lemma init : Kept m (init : Snapshots cfg) where
  unique := nodup_nil
  fresh := fresh_of_reachable (Reachable.start : Reachable Broker.step Any .init .init)
  spent := by simp [Snapshots.spent, Snapshots.init]
  known := by simp [Snapshots.init, TaskTracker.init]
  named := by simp [Snapshots.init, TaskTracker.init, State.init]

lemma frame {New : TaskKey × Int × List UInt8 → Prop} (K : Kept m s)
    (lasts : Lasts New s.tracker.store s'.tracker.store) (fresh : s'.tracker.broker.Fresh)
    (apart : ∀ snap ∈ s.spent m, ∀ l, New l → ∀ root ∈ s'.tracker.store.tasks,
      root.key.jobId = l.1.jobId → ¬ Uses m s'.tracker.store root snap)
    (spent : ∀ snap ∈ s'.spent m, snap ∈ s.spent m ∨ Over m s'.tracker.store snap)
    (batch : ∀ row ∈ s'.tracker.batch, row ∈ s.tracker.batch ∨ row ∈ s'.tracker.store.tasks)
    (created : ∀ x ∈ s'.tracker.broker.created, x ∈ s.tracker.broker.created ∨
      (m.snapshotName x ≠ [] → ∀ k ∈ task cfg x,
        Named m s.tracker.store k (snapshot m cfg x))) : Kept m s' where
  unique := lasts.unique K.unique
  fresh := fresh
  spent snap mem := by
    rcases spent snap mem with old | new
    · exact (K.spent snap old).lasts lasts (apart snap old)
    · exact new
  known row mem := by
    rcases batch row mem with old | new
    · obtain ⟨t, ht, same⟩ := K.known row old
      obtain ⟨t', ht', lasts⟩ := lasts.kept t ht
      exact ⟨t', ht', lasts.label.trans same⟩
    · exact ⟨row, new, rfl⟩
  named x mem some k own := by
    rcases created x mem with old | new
    · exact (K.named x old some k own).lasts lasts
    · exact (new some k own).lasts lasts

lemma unadded (K : Kept m s) (lasts : Lasts (fun _ => False) s.tracker.store s'.tracker.store)
    (fresh : s'.tracker.broker.Fresh)
    (spent : ∀ snap ∈ s'.spent m, snap ∈ s.spent m ∨ Over m s'.tracker.store snap)
    (batch : ∀ row ∈ s'.tracker.batch, row ∈ s.tracker.batch ∨ row ∈ s'.tracker.store.tasks)
    (created : ∀ x ∈ s'.tracker.broker.created, x ∈ s.tracker.broker.created ∨
      (m.snapshotName x ≠ [] → ∀ k ∈ task cfg x,
        Named m s.tracker.store k (snapshot m cfg x))) : Kept m s' :=
  K.frame lasts fresh (fun _ _ _ new => new.elim) spent batch created

lemma background (K : Kept m s) {u : TaskTracker cfg} (fresh : u.broker.Fresh)
    (h : s.tracker.Background u) : Kept m (s.moved m u) := by
  rw [h.idles.moved]
  refine K.unadded h.store fresh (fun _ => .inl) (fun row mem => ?_) fun x mem => ?_
  · exact .inl (h.batch ▸ mem)
  · exact .inl (h.created ▸ mem)

lemma apart_of_clear {r : TaskStore.SessionRequest} {spent : List Snapshot}
    (clear : Clear m spent st r) (added : Appended (r.Makes st) st st') (mem : snap ∈ spent)
    (new : r.Makes st l) {root : Task} (known : root ∈ st'.tasks)
    (job : root.key.jobId = l.1.jobId) : ¬ Uses m st' root snap := by
  rintro ⟨top, name, t, ht, sameJob, atInstance⟩
  obtain ⟨label, rfl, named⟩ := new
  have free := clear.free
  unfold Clear at clear
  split at clear
  · next atRoot =>
    obtain ⟨fresh, unspent⟩ := clear
    have own : (⟨r.taskId.parentId, label⟩ : TaskKey).jobId = r.taskId.taskId := by
      rw [TaskKey.jobId, atRoot, named (free atRoot)]
      rfl
    rw [own] at job
    rcases added.old root known with old | ⟨label', same, -⟩
    · exact fresh root old job
    · rcases added.old t ht with old | ⟨label'', same', -⟩
      · exact fresh t old (sameJob.trans job)
      · refine unspent ?_
        have payload : root.payload = r.workload := congrArg (·.2.2) same
        have instanceId : t.instanceId = r.instanceId := congrArg (·.2.1) same'
        rw [← payload, ← instanceId, name, atInstance]
        exact mem
  · next below =>
    have own : (⟨r.taskId.parentId, label⟩ : TaskKey).jobId = r.taskId.jobId := by
      obtain ⟨last, found⟩ := ne_none_iff_exists'.mp (mt List.getLast?_eq_none_iff.mp below)
      simp [TaskKey.jobId, found]
    rw [own] at job
    rcases added.old root known with old | ⟨label', same, -⟩
    · have key : root.key = ⟨[], r.taskId.jobId⟩ := job ▸ eq_of_root top
      obtain ⟨elsewhere, unused⟩ := clear snap mem root old key name
      rcases added.old t ht with old | ⟨label'', same', -⟩
      · exact unused ⟨top, name, t, old, sameJob, atInstance⟩
      · have instanceId : t.instanceId = r.instanceId := congrArg (·.2.1) same'
        exact elsewhere (instanceId.symm.trans atInstance)
    · have parent : root.key.parentId = r.taskId.parentId := congrArg (·.1.parentId) same
      exact below (parent.symm.trans top)

lemma apart_of_shard (K : Kept m s) (lasts : Lasts (Shard row) s.tracker.store st)
    (mem : row ∈ s.tracker.batch) (unended : s.tracker.store.Unended row.key)
    (spent : snap ∈ s.spent m) (new : Shard row l) (known : root ∈ st.tasks)
    (job : root.key.jobId = l.1.jobId) : ¬ Uses m st root snap := by
  rintro ⟨top, name, t, ht, sameJob, atInstance⟩
  obtain ⟨own, held, label⟩ := K.known row mem
  have ownKey : own.key = row.key := congrArg (·.1) label
  have shardJob : ∀ l : TaskKey × Int × List UInt8, Shard row l → l.1.jobId = row.key.jobId := by
    rintro ⟨⟨parentId, taskId⟩, _⟩ ⟨rfl, -⟩
    simp [TaskKey.jobId, TaskKey.childrenId, List.getLast?_cons]
  rw [shardJob l new] at job
  obtain ⟨root₀, mem₀, lastsRoot⟩ := (lasts.old root known).resolve_left fun shard => by
    have parent : root.key.parentId = row.key.childrenId := shard.1
    rw [top] at parent
    cases parent
  have uses : Uses m s.tracker.store root₀ snap := by
    refine ⟨by rwa [← lastsRoot.key], by rwa [← lastsRoot.payload], ?_⟩
    rcases lasts.old t ht with shard | ⟨t₀, ht₀, lastsT⟩
    · refine ⟨own, held, ?_, ?_⟩
      · rw [ownKey, ← lastsRoot.key, job]
      · have same : own.instanceId = row.instanceId := congrArg (·.2.1) label
        rw [same, ← atInstance]
        exact shard.2.symm
    · exact ⟨t₀, ht₀, by rwa [← lastsT.key, ← lastsRoot.key], by rwa [← lastsT.instanceId]⟩
  have ended := K.spent snap spent root₀ mem₀ uses own held (by rw [ownKey, ← lastsRoot.key, job])
  rw [unended own held ownKey] at ended
  cases ended

lemma named_of_polled (K : Kept m s) {found : Bool} (mem : row ∈ s.tracker.batch)
    (own : task cfg x = some row.key) (instanceId : (cfg.request x).key.instanceId = row.instanceId)
    (polled : m.snapshotName x = polledName m s.tracker.store row found)
    (some : m.snapshotName x ≠ []) {k : TaskKey} (task : k ∈ task cfg x) :
    Named m s.tracker.store k (snapshot m cfg x) := by
  cases own.symm.trans task
  obtain ⟨t, ht, label⟩ := K.known row mem
  have key : t.key = row.key := congrArg (·.1) label
  refine ⟨?_, t, ht, key, ?_⟩
  · rw [polledName] at polled
    split at polled
    · next top =>
      have payload : t.payload = row.payload := congrArg (·.2.2) label
      refine ⟨t, ht, key.trans (eq_of_root top), ?_⟩
      rw [payload]
      exact polled.symm
    · split at polled
      · cases found : s.tracker.store.find ⟨[], row.key.jobId⟩ with
        | none =>
          rw [found] at polled
          exact absurd polled some
        | some root =>
          rw [found] at polled
          exact ⟨root, find_mem found, find_key found, polled.symm⟩
      · exact absurd polled some
  · have same : t.instanceId = row.instanceId := congrArg (·.2.1) label
    rw [same, ← instanceId]
    rfl

lemma turn (K : Kept m s) (fresh : u.broker.Fresh) (own : ownTurn cfg act = true) (orderly : ∀ t ∈
      Broker.step s.tracker.broker act, Orderly m (s.tracker.broker.news t) os { s.tracker with
      broker := t }) (h : s.tracker.turn act os = some u) : Kept m (s.moved m u) := by
  obtain ⟨t, taken, stepped, delivered⟩ := TaskTracker.turn_cases h
  have writes := TaskTracker.deliver_writes delivered
  have broker : u.broker = t := writes.broker
  obtain ⟨lasts, timed, -⟩ := TaskTracker.deliver_orderly (orderly t taken) delivered
  refine K.unadded lasts fresh (fun snap mem => ?_) (fun row mem => ?_) fun x mem => ?_
  · simp only [Snapshots.spent, Snapshots.moved, map_append, append_assoc, mem_append] at mem ⊢
    rcases mem with old | new | gone
    · exact .inl (.inl old)
    · obtain ⟨x, started, rfl⟩ := mem_map.mp new
      rw [broker] at started
      exact .inr (timed x started)
    · exact .inl (.inr gone)
  · exact .inl (writes.batch ▸ mem)
  · simp only [Snapshots.moved, broker] at mem
    rcases made_of_step stepped mem with old | ⟨rfl, -⟩ | ⟨a, rfl⟩
    · exact .inl old
    · refine .inr fun _ k mine => ?_
      have none : task cfg x = none := by simpa [ownTurn] using own
      rw [none] at mine
      cases mine
    · cases own

lemma process {found : Bool} {u : TaskTracker cfg} (K : Kept m s) (fresh : u.broker.Fresh)
    (ok : Outlasting m setup s (.tracker (.process x c) found))
    (polled : Polled m s.tracker u found (.process x c)) (h : s.tracker.process setup x c = some u) :
    Kept m (s.moved m u) := by
  obtain ⟨row, rest, batch, left, -, dispatched⟩ := dispatched h
  have mem : row ∈ s.tracker.batch := by simp [batch]
  have head : row ∈ s.tracker.batch.head? := by simp [batch]
  have queue : ∀ row' ∈ u.batch, row' ∈ s.tracker.batch := fun row' within => by
    rw [batch]
    exact mem_cons_of_mem _ (left.subset within)
  rw [dispatched.idles.moved]
  cases dispatched with
  | sharded divides broker lasts =>
    have unended := ok row head divides
    refine K.frame (lasts unended) fresh
      (fun _ spent _ new _ known => K.apart_of_shard (lasts unended) mem unended spent new known)
      (fun _ => .inl) (fun row' within => .inl (queue row' within)) fun x made => ?_
    exact .inl (broker ▸ made)
  | skipped broker store =>
    refine K.unadded (.of_tasks (by rw [store])) fresh (fun _ => .inl)
      (fun row' within => .inl (queue row' within)) fun x made => ?_
    exact .inl (broker ▸ made)
  | launched unmade created events store own instanceId =>
    refine K.unadded (.of_tasks (by rw [store])) fresh (fun _ => .inl)
      (fun row' within => .inl (queue row' within)) fun y made => ?_
    have made : y ∈ x :: s.tracker.broker.created := created ▸ made
    rcases mem_cons.mp made with rfl | old
    · have name := polled unmade (created ▸ mem_cons_self) row head
      exact .inr fun some k mine => K.named_of_polled mem own instanceId name some mine
    · exact .inl old

lemma aside (K : Kept m s) {t : State cfg} {made : List Snapshot} (fresh : t.Fresh)
    (created : ∀ x ∈ t.created, x ∈ s.tracker.broker.created ∨ task cfg x = none) :
    Kept m { s with created := made ++ s.created, tracker := { s.tracker with broker := t } } := by
  refine K.unadded (.refl _) fresh (fun _ => .inl) (fun _ => .inl) fun x mem => ?_
  refine (created x mem).imp_right fun none _ k mine => ?_
  rw [none] at mine
  cases mine

lemma step {act : SnapshotAction} (K : Kept m s) (ok : Outlasting m setup s act)
    (h : s.step m setup act = some s') : Kept m s' := by
  cases stepped h with
  | failed | answered => exact K.aside K.fresh fun _ => .inl
  | submitted _ created =>
    have added := appended_createTask created
    exact K.frame added.lasts K.fresh
      (fun _ mem _ new _ known job => apart_of_clear ok added mem new known job) (fun _ => .inl)
      (fun _ => .inl) fun _ => .inl
  | opened _ none taken =>
    have stepped := (step_cases taken).2
    refine K.aside (K.fresh.step stepped) fun y made => ?_
    rcases made_of_step stepped made with old | ⟨added, -⟩ | ⟨a, registers⟩
    · exact .inl old
    · cases added
      exact .inr none
    · cases registers
  | @tracked act found u inside taken polled =>
    have fresh : u.broker.Fresh :=
      broker_rule taken (fun _ _ _ _ _ F stepped => F.step stepped) K.fresh
    cases act with
    | broker act os =>
      simp only [Tracker.step] at taken
      split at taken
      · next own => exact K.turn fresh own ok taken
      · cases taken
    | create => cases inside
    | poll =>
      simp only [Tracker.step, poll] at taken
      split at taken
      · cases taken
        rw [Idles.moved]
        · exact K.unadded (.pollTasksOnce K.unique _) K.fresh (fun _ => .inl)
            (fun row mem => .inr (mem_of_polled mem)) fun _ => .inl
        · exact .of_events rfl
      · cases taken
    | process x c => exact K.process fresh ok polled taken
    | register a x o =>
      obtain ⟨lasts, batch, created, idles, -⟩ := reported_cases taken
      rw [idles.moved]
      refine K.unadded lasts fresh (fun _ => .inl) (fun row mem => .inl (batch ▸ mem))
        fun y made => ?_
      have made : y ∈ x :: s.tracker.broker.created := created ▸ made
      rcases mem_cons.mp made with rfl | old
      · exact .inr ok
      · exact .inl old
    | goroutine i ctxDone o => exact K.background fresh (background_goroutine taken)
    | elsewhere op =>
      refine K.background fresh (background_elsewhere K.unique ?_ taken)
      rintro k result clock rfl
      exact ok
    | _ =>
      exact K.background fresh (background_upkeep (by simp [upkeep]) taken)
  | @fired i x fails found =>
    refine K.unadded (.refl _) K.fresh (fun snap mem => .inl ?_) (fun _ => .inl) fun _ => .inl
    have timer : snapshot m cfg x ∈ s.spent m :=
      mem_append_left _ (mem_map_of_mem (mem_of_getElem? found))
    rcases mem_append.mp mem with pending | gone
    · exact mem_append_left _ (map_subset _ eraseIdx_subset pending)
    · cases fails with
      | true => exact mem_append_right _ gone
      | false =>
        rcases mem_cons.mp gone with rfl | gone
        · exact timer
        · exact mem_append_right _ gone

end Kept

lemma kept_of_reachable (h : Reachable (Snapshots.step m setup) (Outlasting m setup) .init s) :
    Kept m s :=
  h.invariant .init fun _ _ _ K ok taken => K.step ok taken

def Starts (s t : Snapshots cfg) (x : SessionPtr) : Prop :=
  ∃ a, .sendSession a x ∈ s.tracker.broker.news t.tracker.broker

lemma turn_of_starts (h : s.step m setup act = some t) (starts : Starts s t x) :
    ∃ b os found, act = .tracker (.broker b os) found ∧ s.tracker.turn b os = some t.tracker := by
  have quiet : ¬ Idles s.tracker.broker t.tracker.broker := by
    intro idles
    obtain ⟨a, sent⟩ := starts
    cases idles.news _ sent
  cases stepped h with
  | opened _ _ taken =>
    refine absurd (.of_events ?_) quiet
    cases (step_cases taken).2
    rfl
  | @tracked act found u inside taken =>
    cases act with
    | broker b os =>
      simp only [Tracker.step] at taken
      split at taken
      · exact ⟨b, os, found, rfl, taken⟩
      · cases taken
    | create => cases inside
    | poll =>
      simp only [Tracker.step, poll] at taken
      split at taken
      · cases taken
        exact absurd (.of_events rfl) quiet
      · cases taken
    | process y c =>
      obtain ⟨row, rest, -, -, -, dispatched⟩ := dispatched taken
      exact absurd dispatched.idles quiet
    | register a y o => exact absurd (reported_cases taken).2.2.2.1 quiet
    | goroutine i ctxDone o => exact absurd (background_goroutine taken).idles quiet
    | elsewhere op =>
      simp only [Tracker.step] at taken
      split at taken
      · obtain ⟨_, -, rfl⟩ := map_eq_some_iff.mp taken
        exact absurd (.of_events rfl) quiet
      · cases taken
    | _ =>
      exact absurd (background_upkeep (by simp [upkeep]) taken).idles quiet
  | _ => exact absurd (.of_events rfl) quiet

def family : Config :=
  { taskPool with
    request := fun x => { taskPool.request x with taskId := if x = 0 then "p" else "p/c" } }

/-- The job has the snapshot `s`; the workload of the child has no name of its own. -/
def mounts : Mounts where
  workload bytes := if bytes = [] then ⟨[['/', 'd']], ['s']⟩ else {}
  snapshotName _ := ['s']

def jobCalls : Jobs.Calls := { snapshotId := [], jobId := ['p'], slashless := by decide }

def submitsJob : List SnapshotAction :=
  [.tracker (.addPool "pool") true,
    .submit false
      { instanceId := 0, taskId := ['s'], writableDirs := [['/', 'd']], workload := some {} }
      jobCalls { taskId := ⟨[], "p"⟩, dependencies := [], pool := "pool" } 1 false]

def submitsChild : SnapshotAction :=
  .submit true { instanceId := 0, workload := some {} } jobCalls
    { taskId := ⟨["p"], "c"⟩, dependencies := [], pool := "pool", workload := [1] } 2 false

def tracked (acts : List Action) : List SnapshotAction := acts.map (.tracker · true)

def exits (cfg : Config) (x : SessionPtr) (a : AgentPtr) : List Action :=
  turns [.recv a { sessionCompletion := some ⟨cfg.key x, false, true⟩ }, .agent a (.update true)]

def runsRoot : List SnapshotAction :=
  submitsJob ++ tracked (turns (joins 0) ++ runsOn 0 0 ++ turns (starts family 0 0) ++
    [.goroutine 0 false {}])

end Velda.Tracker
