import Velda.Broker.Closing
import Velda.Tracker.Outlives

/-! Which snapshots are deleted. A timer knows a snapshot by its name only, and the end of a root
task starts it only where that is the end of a session that the tracker has registered.
Where both agree for all jobs, each of them has its own snapshot deleted once. -/
namespace Velda.Tracker
open Lib Broker TaskStore List Option TaskTracker Snapshots

variable {cfg : Config} {tr u : TaskTracker cfg} {setup : Setup} {m : Mounts}

def Owns (m : Mounts) (t : Task) : Prop :=
  t.key.parentId = [] ∧ (m.workload t.payload).snapshotName ≠ []

instance (t : Task) : Decidable (Owns m t) := inferInstanceAs (Decidable (_ ∧ _))

def ownSnapshot (m : Mounts) (root : Task) : Snapshot :=
  (root.instanceId, (m.workload root.payload).snapshotName)

def OwnsAt (m : Mounts) (s : Store) (k : TaskKey) : Prop := ∃ t ∈ s.tasks, t.key = k ∧ Owns m t

instance (s : Store) (k : TaskKey) : Decidable (OwnsAt m s k) :=
  inferInstanceAs (Decidable (∃ t ∈ s.tasks, _))

/-- Jobs bring no names of snapshots, and a snapshot that is made is a new one, for a job that
waits for nothing. Its root is not sharded, not cancelled before it has a session and not leased
twice, it has no session but the one of its lease, and its row is left to the completion of that
session, which agents report in time. Deletions succeed. -/
def Owned (m : Mounts) (setup : Setup) (s : Snapshots cfg) : SnapshotAction → Prop
  | .submit inBatch req calls r _ _ => inBatch = false → req.snapshotName = [] ∧
      ∀ snap ∈ made false req calls, snap ∉ s.created ∧ r.dependencies = [] ∧
        (∀ d ∈ s.tracker.store.deps, d.downstream ≠ r.taskId) ∧
        ∀ x ∈ s.tracker.broker.created, task cfg x ≠ some r.taskId
  | .tracker (.broker act _) _ => Timely s.tracker.broker act
  | .tracker (.process _ _) _ => ∀ row ∈ s.tracker.batch.head?, Owns m row →
      (setup.unmarshal row.payload).toShard = false ∧
        s.tracker.isCancelled row.key.jobId = false
  | .tracker (.goroutine i ctxDone _) _ => ∀ g ∈ s.tracker.goroutines[i]?,
      ∀ k ∈ task cfg g.session, OwnsAt m s.tracker.store k → s.tracker.store.Unleased k ∨
        ctxDone = false ∧ (s.tracker.broker.sessions g.session).schedulingErr = none
  | .tracker (.register _ x _) _ => ∀ k ∈ task cfg x, ¬ OwnsAt m s.tracker.store k
  | .tracker (.cancelRows jobId _) _ => ∀ t ∈ s.tracker.store.tasks, t.key.jobId = jobId →
      Owns m t → t.status ≠ .queueing
  | .tracker (.releaseExpiredLeaser lastLeaseTime) _ => ∀ t ∈ s.tracker.store.tasks,
      t.released (s.tracker.expired lastLeaseTime) = true → ¬ Owns m t
  | .tracker (.elsewhere (.store (.report k _ _))) _ => ¬ OwnsAt m s.tracker.store k
  | .fire _ fails => fails = false
  | _ => True

local instance : LawfulBEq Snapshot := inferInstance

instance (s : Snapshots cfg) (act : SnapshotAction) : Decidable (Owned m setup s act) := by
  induction act using SnapshotAction.casesOn with
  | tracker act found =>
    induction act using Action.casesOn with
    | elsewhere op =>
      induction op using JobOp.casesOn with
      | store op => induction op using Op.casesOn <;> unfold Owned <;> infer_instance
      | _ => unfold Owned; infer_instance
    | goroutine => unfold Owned Store.Unleased; infer_instance
    | _ => unfold Owned; infer_instance
  | _ => unfold Owned; infer_instance

/-- The root of a job with a snapshot has one session at most, from its lease on and with that
snapshot, and the snapshot is spent once when the root has ended. -/
structure Sole (m : Mounts) (s : Snapshots cfg) (key : TaskKey) (snap : Snapshot)
    (status : Status) : Prop where
  made : snap ∈ s.created
  alone : s.tracker.store.Alone key
  leased : key ∈ s.tracker.batch.map (·.key) → status = .leased
  unsent : status = .queueing ∨ key ∈ s.tracker.batch.map (·.key) →
    ∀ x ∈ s.tracker.broker.created, task cfg x ≠ some key
  sole : ∀ x ∈ s.tracker.broker.created, ∀ y ∈ s.tracker.broker.created,
    task cfg x = some key → task cfg y = some key → x = y
  session : ∀ x ∈ s.tracker.broker.created, task cfg x = some key →
    (s.tracker.home x).isSome = true ∧ snapshot m cfg x = snap
  ended : status.terminal = true → ∀ x ∈ s.tracker.broker.created,
    task cfg x = some key → (s.tracker.broker.sessions x).status.terminal = true
  spent : (s.spent m).count snap = if status.terminal then 1 else 0

abbrev Sole.Of (m : Mounts) (s : Snapshots cfg) (root : Task) : Prop :=
  Sole m s root.key (ownSnapshot m root) root.status

structure Owning (m : Mounts) (s : Snapshots cfg) : Prop where
  kept : ∀ x, s.tracker.broker.Kept x
  batch : (s.tracker.batch.map (·.key)).Nodup
  apart : ∀ root ∈ s.tracker.store.tasks, ∀ other ∈ s.tracker.store.tasks, Owns m root →
    Owns m other → ownSnapshot m root = ownSnapshot m other → root.key = other.key
  made : ∀ snap ∈ s.spent m, snap ∈ s.created
  roots : ∀ root ∈ s.tracker.store.tasks, Owns m root → Sole.Of m s root

section Labels
variable {t t' : Task}

lemma Owns.label (h : Owns m t) (label : t'.label = t.label) : Owns m t' := by
  obtain ⟨key, payload⟩ : t'.key = t.key ∧ t'.payload = t.payload :=
    ⟨congrArg (·.1) label, congrArg (·.2.2) label⟩
  unfold Owns
  rw [key, payload]
  exact h

lemma ownSnapshot_label (label : t'.label = t.label) : ownSnapshot m t' = ownSnapshot m t := by
  obtain ⟨instanceId, payload⟩ : t'.instanceId = t.instanceId ∧ t'.payload = t.payload :=
    ⟨congrArg (·.2.1) label, congrArg (·.2.2) label⟩
  unfold ownSnapshot
  rw [instanceId, payload]

lemma eq_of_key {s : Store} (unique : s.UniqueKeys) (ht : t ∈ s.tasks) (ht' : t' ∈ s.tasks)
    (same : t.key = t'.key) : t = t' := by
  have found := find_of_mem unique ht
  rw [same, find_of_mem unique ht'] at found
  exact (Option.some.inj found).symm

end Labels

lemma TaskTracker.deletes_eq_some :
    tr.deletes m e = some x ↔ e.closes x = true ∧ (tr.home x).isSome = true ∧
      isRoot cfg x = true ∧ m.snapshotName x ≠ [] := by
  cases e with
  | recordExecution y final =>
    simp only [deletes, Event.closes, Bool.and_eq_true, decide_eq_true_eq]
    constructor
    · intro starts
      split at starts
      · next ends =>
        cases starts
        exact ⟨⟨rfl, ends.1⟩, ends.2⟩
      · cases starts
    · rintro ⟨⟨rfl, kind⟩, rest⟩
      exact if_pos ⟨kind, rest⟩
  | _ => simp [deletes, Event.closes]

lemma isRoot_eq (task : task cfg x = some k) : isRoot cfg x = true ↔ k.parentId = [] := by
  simp [isRoot, task]

namespace Sole
variable {s s' : Snapshots cfg} {key : TaskKey} {snap : Snapshot} {status : Status}

lemma label (label : root.label = root'.label) (status : root.status = root'.status)
    (S : Of m s root) : Of m s root' := by
  unfold Of at S
  rwa [show root.key = root'.key from congrArg (·.1) label, ← ownSnapshot_label label.symm,
    status] at S

lemma frame (S : Sole m s key snap status) (made : s.created ⊆ s'.created)
    (alone : s'.tracker.store.Alone key)
    (batch : key ∈ s'.tracker.batch.map (·.key) → key ∈ s.tracker.batch.map (·.key))
    (created : ∀ x ∈ s'.tracker.broker.created, task cfg x = some key →
      x ∈ s.tracker.broker.created)
    (home : ∀ x, (s.tracker.home x).isSome = true → (s'.tracker.home x).isSome = true)
    (ended : ∀ x, (s.tracker.broker.sessions x).status.terminal = true →
      (s'.tracker.broker.sessions x).status.terminal = true)
    (spent : (s'.spent m).count snap = (s.spent m).count snap) : Sole m s' key snap status where
  made := made S.made
  alone := alone
  leased mem := S.leased (batch mem)
  unsent waits x mem own := S.unsent (waits.imp_right batch) x (created x mem own) own
  sole x hx y hy ofX ofY := S.sole x (created x hx ofX) y (created y hy ofY) ofX ofY
  session x mem own := (S.session x (created x mem own) own).imp_left (home x)
  ended past x mem own := ended x (S.ended past x (created x mem own) own)
  spent := spent.trans S.spent

end Sole

namespace Owning
variable {s s' : Snapshots cfg}

lemma apart_of_labels (O : Owning m s) {st : Store}
    (old : ∀ t' ∈ st.tasks, Owns m t' → ∃ t ∈ s.tracker.store.tasks, t.label = t'.label) :
    ∀ root ∈ st.tasks, ∀ other ∈ st.tasks, Owns m root → Owns m other →
      ownSnapshot m root = ownSnapshot m other → root.key = other.key := by
  intro root' mem' other' otherMem owns' otherOwns same
  obtain ⟨root, mem, label⟩ := old root' mem' owns'
  obtain ⟨other, known, otherLabel⟩ := old other' otherMem otherOwns
  rw [← ownSnapshot_label label, ← ownSnapshot_label otherLabel] at same
  have keys := O.apart root mem other known (owns'.label label) (otherOwns.label otherLabel) same
  exact (congrArg (·.1) label).symm.trans (keys.trans (congrArg (·.1) otherLabel))

lemma frame {New : TaskKey × Int × List UInt8 → Prop} (O : Owning m s)
    (lasts : Lasts New s.tracker.store s'.tracker.store) (below : ∀ l, New l → l.1.parentId ≠ [])
    (stands : ∀ root ∈ s.tracker.store.tasks, Owns m root →
      Stands root.key s.tracker.store s'.tracker.store) (kept : ∀ x, s'.tracker.broker.Kept x)
    (ended : ∀ x, (s.tracker.broker.sessions x).status.terminal = true →
      (s'.tracker.broker.sessions x).status.terminal = true)
    (batch : (s'.tracker.batch.map (·.key)).Sublist (s.tracker.batch.map (·.key)))
    (made : s.created ⊆ s'.created)
    (created : ∀ x ∈ s'.tracker.broker.created, x ∈ s.tracker.broker.created ∨
      ∀ k ∈ task cfg x, ¬ OwnsAt m s.tracker.store k)
    (home : ∀ x, (s.tracker.home x).isSome = true → (s'.tracker.home x).isSome = true)
    (spent : (s'.spent m).Perm (s.spent m)) : Owning m s' := by
  have old : ∀ t' ∈ s'.tracker.store.tasks, Owns m t' → ∃ root ∈ s.tracker.store.tasks,
      Owns m root ∧ root.label = t'.label ∧ root.status = t'.status := by
    intro t' mem owns
    obtain ⟨t, ht, lasts⟩ := (lasts.old t' mem).resolve_left fun new => below _ new owns.1
    obtain ⟨root, hr, label, status⟩ :=
      (stands t ht (owns.label lasts.label.symm)).old t' mem lasts.key
    exact ⟨root, hr, owns.label label, label, status⟩
  refine ⟨kept, O.batch.sublist batch, O.apart_of_labels fun t' mem owns => ?_,
    fun snap mem => made (O.made snap (spent.subset mem)), fun root' mem' owns' => ?_⟩
  · obtain ⟨root, hr, -, label, -⟩ := old t' mem owns
    exact ⟨root, hr, label⟩
  · obtain ⟨root, mem, owns, label, status⟩ := old root' mem' owns'
    have S := O.roots root mem owns
    refine .label label status (S.frame made (S.alone.stands (stands root mem owns))
      (batch.subset ·) (fun x hx own => ?_) home ended (spent.count_eq _))
    exact (created x hx).resolve_right fun none => none _ own ⟨root, mem, rfl, owns⟩

end Owning

variable {row : Task} {c : Callback} {o : Answer} {i : Nat} {rest : List Task} {leaser : String}
  {found : Bool}

section Rows
variable {st st' : Store} {j k : TaskKey}

lemma stands_write (alone : st.Alone k) (other : j = k → r.cancelled = true ∧ st.Unleased k)
    (h : write st j r o = some st') : Stands k st st' := by
  unfold write at h
  split at h
  · cases h
    exact .refl st
  · exact .updateTaskFinalResult alone other h

lemma deps_write (h : write st j r o = some st') : st'.deps = st.deps := by
  unfold write at h
  split at h
  · cases h
    rfl
  · exact updateTaskFinalResult_deps h

lemma stands_createShards {pool : String} (top : k.parentId = [])
    (h : createShards setup row w pool c n i st = (st', done)) : Stands k st st' := by
  refine (createShards_rule .refl .trans (fun i now created => ?_) h).1
  obtain ⟨added, name, status, tasks, deps, linked, -⟩ := createTask_cases created
  have none : added = [] := prefix_nil.mp linked
  refine ⟨by rw [deps, none, append_nil], fun t mem atKey => ?_⟩
  rw [tasks] at mem
  rcases mem_append.mp mem with old | new
  · exact ⟨t, old, rfl, rfl⟩
  · cases mem_singleton.mp new
    rw [← atKey] at top
    cases top

end Rows

namespace TaskTracker

variable {k : TaskKey}

lemma stands_process (batch : tr.batch = row :: rest) (alone : tr.store.Alone k)
    (top : k.parentId = []) (whole : row.key = k → (setup.unmarshal row.payload).toShard = false)
    (h : tr.process setup x c = some u) : Stands k tr.store u.store := by
  obtain ⟨row', rest', same, processed⟩ := processed h
  cases batch.symm.trans same
  cases processed with
  | shardFailed _ made => exact stands_createShards top made
  | sharded divides made written =>
    have added : Stands k tr.store _ := stands_createShards top made
    refine added.trans (stands_write (alone.stands added) (fun same => ?_) written)
    cases divides.symm.trans (whole same)
  | _ => exact .refl _

lemma stands_goroutine {ctxDone : Bool} (alone : tr.store.Alone k)
    (calm : ∀ g ∈ tr.goroutines[i]?, task cfg g.session = some k → tr.store.Unleased k ∨
      ctxDone = false ∧ (tr.broker.sessions g.session).schedulingErr = none)
    (h : tr.goroutine i ctxDone o = some u) : Stands k tr.store u.store := by
  cases ran h with
  | returned | scheduled => exact .refl _
  | reported found own failed written =>
    refine stands_write alone (fun same => ⟨rfl, ?_⟩) written
    exact (calm _ found (same ▸ own)).resolve_right failed

lemma stands_deliver (alone : tr.store.Alone k)
    (quiet : ∀ e ∈ evs, ∀ x, task cfg x = some k → e ≠ .updateTaskResult x ∧ e.closes x = false)
    (h : deliver evs os tr = some u) : Stands k tr.store u.store := by
  refine (deliver_rule (I := fun _ v => Stands k tr.store v.store) (.refl _)
    (fun v w e rest o stands mem _ _ noted => ?_) h).1
  refine stands.trans ?_
  have alone := alone.stands stands
  cases noted with
  | nothing => exact .refl _
  | @result x j r s own written =>
    exact stands_write alone (fun same => absurd rfl (quiet _ mem x (same ▸ own)).1) written
  | @closed _ x _ closes completed =>
    have other : ∀ j, task cfg x = some j → j ≠ k := by
      rintro j own rfl
      rw [(quiet e mem x own).2] at closes
      cases closes
    cases completed with
    | unregistered => exact .refl _
    | ended => exact .refl _
    | cancelled _ own _ written =>
      exact stands_write alone (fun same => absurd same (other _ own)) written

lemma deps_deliver (h : deliver evs os tr = some u) : u.store.deps = tr.store.deps := by
  refine (deliver_rule (I := fun _ v => v.store.deps = tr.store.deps) rfl
    (fun v w e rest o same _ _ _ noted => ?_) h).1
  rw [← same]
  cases noted with
  | nothing => rfl
  | result _ written => exact deps_write written
  | closed _ completed =>
    cases completed with
    | unregistered | ended => rfl
    | cancelled _ _ _ written => exact deps_write written

end TaskTracker

lemma kept_of_tracked (h : step setup tr act = some u)
    (timely : ∀ b os, act = .broker b os → Timely tr.broker b) (kept : ∀ x, tr.broker.Kept x) :
    (∀ x, u.broker.Kept x) ∧ ∀ x, (tr.broker.sessions x).status.terminal = true →
      (u.broker.sessions x).status.terminal = true := by
  refine broker_rule h (I := fun b => (∀ x, b.Kept x) ∧ ∀ x,
    (tr.broker.sessions x).status.terminal = true → (b.sessions x).status.terminal = true)
    (fun s b t _ agents holds stepped => ?_) ⟨kept, fun _ => id⟩
  have timely : Timely s b := by
    cases b with
    | agent a e =>
      obtain ⟨os, rfl, rfl⟩ := agents a e rfl
      exact timely _ os rfl
    | _ => trivial
  exact ⟨fun x => (holds.1 x).step stepped timely,
    fun x past => terminal_of_step stepped (holds.1 x) timely (holds.2 x past)⟩

namespace Owning
variable {s : Snapshots cfg} {act : Broker.Action} {t : State cfg} {e : Event} {x : SessionPtr}
  {root : Task}

lemma made_of_closes (K : Kept m s) (stepped : Step s.tracker.broker act t)
    (mem : e ∈ s.tracker.broker.news t) (closes : e.closes x = true) :
    x ∈ s.tracker.broker.created := by
  by_contra unmade
  obtain ⟨evs, added, concerned, -⟩ := concerned_of_step stepped
  rw [State.news_eq added] at mem
  refine concerned x e (mem_reverse.mp mem) ?_ (K.fresh x unmade)
  cases e with
  | recordExecution y final =>
    simp only [Event.closes, Bool.and_eq_true] at closes
    simp [Event.concerns, closes.1]
  | _ => cases closes

lemma root_of_started (K : Kept m s) (stepped : Step s.tracker.broker act t)
    (mem : e ∈ s.tracker.broker.news t) (starts : s.tracker.deletes m e = some x) :
    ∃ root ∈ s.tracker.store.tasks, Owns m root ∧ task cfg x = some root.key ∧
      ownSnapshot m root = snapshot m cfg x := by
  obtain ⟨closes, -, isRoot, named⟩ := deletes_eq_some.mp starts
  obtain ⟨k, own⟩ : ∃ k, task cfg x = some k := by
    cases own : task cfg x with
    | none => simp [Tracker.isRoot, own] at isRoot
    | some k => exact ⟨k, rfl⟩
  have top := (isRoot_eq own).mp isRoot
  obtain ⟨⟨root, hr, key, name⟩, row, ht, atKey, instanceId⟩ :=
    K.named x (made_of_closes K stepped mem closes) named k own
  rw [← eq_of_root top] at key
  obtain rfl := eq_of_key K.unique hr ht (key.trans atKey.symm)
  refine ⟨root, hr, ⟨key ▸ top, ?_⟩, key ▸ own, Prod.ext instanceId name⟩
  rw [name]
  exact named

variable (O : Owning m s) (K : Kept m s) (hr : root ∈ s.tracker.store.tasks) (owns : Owns m root)
include O K hr owns

lemma task_of_started (stepped : Step s.tracker.broker act t)
    (mem : e ∈ s.tracker.broker.news t) (starts : s.tracker.deletes m e = some x)
    (same : snapshot m cfg x = ownSnapshot m root) : task cfg x = some root.key := by
  obtain ⟨other, known, owned, own, snap⟩ := root_of_started K stepped mem starts
  rw [own, O.apart other known root hr owned owns (snap.trans same)]

lemma count_started (stepped : Step s.tracker.broker act t)
    (made : x ∈ s.tracker.broker.created) (own : task cfg x = some root.key) :
    (((s.tracker.broker.news t).filterMap (s.tracker.deletes m)).map (snapshot m cfg)).count
      (ownSnapshot m root) = (s.tracker.broker.news t).countP (·.closes x) := by
  have S := O.roots root hr owns
  obtain ⟨registered, named⟩ := S.session x made own
  rw [List.count, countP_map, countP_filterMap]
  refine countP_congr fun e mem => ?_
  constructor
  · intro counts
    obtain ⟨y, starts, same⟩ :
        ∃ y, s.tracker.deletes m e = some y ∧ snapshot m cfg y = ownSnapshot m root := by
      cases starts : s.tracker.deletes m e with
      | none => simp [starts] at counts
      | some y => exact ⟨y, rfl, by simpa [starts] using counts⟩
    have closes := (deletes_eq_some.mp starts).1
    obtain rfl := S.sole y (made_of_closes K stepped mem closes) x made
      (O.task_of_started K hr owns stepped mem starts same) own
    exact closes
  · intro closes
    have name : m.snapshotName x = (m.workload root.payload).snapshotName := congrArg (·.2) named
    have starts : s.tracker.deletes m e = some x := deletes_eq_some.mpr
      ⟨closes, registered, (isRoot_eq own).mpr owns.1, name ▸ owns.2⟩
    simp [starts, named]

end Owning

lemma Snapshots.count_spent (s : Snapshots cfg) (u : TaskTracker cfg) (snap : Snapshot) :
    ((s.moved m u).spent m).count snap = (s.spent m).count snap +
      (((s.tracker.broker.news u.broker).filterMap (s.tracker.deletes m)).map
        (snapshot m cfg)).count snap := by
  simp only [spent, moved, map_append, count_append]
  omega

section Turn
variable {s : Snapshots cfg} {act : Broker.Action} {os : List Answer} {u : TaskTracker cfg}
  {t : State cfg} {root root' : Task}

lemma made_of_turn (own : ownTurn cfg act = true) (stepped : Step s.tracker.broker act t)
    (made : x ∈ t.created) (mine : task cfg x = some k) : x ∈ s.tracker.broker.created := by
  rcases made_of_step stepped made with old | ⟨rfl, -⟩ | ⟨a, rfl⟩
  · exact old
  · have none : task cfg x = none := by simpa [ownTurn] using own
    rw [none] at mine
    cases mine
  · cases own

variable (O : Owning m s) (K : Kept m s) (own : ownTurn cfg act = true)
  (timely : Timely s.tracker.broker act) (stepped : Step s.tracker.broker act t)
  (delivered : deliver (s.tracker.broker.news t) os { s.tracker with broker := t } =
    some u)
  (owns : Owns m root)
include O K own timely stepped delivered owns

lemma Sole.closed {e : Event} (hr : root ∈ s.tracker.store.tasks) (hr' : root' ∈ u.store.tasks)
    (lasts : root.Lasts root') (unique : u.store.UniqueKeys)
    (past : Over m u.store (ownSnapshot m root)) (mem : e ∈ s.tracker.broker.news t)
    (closes : e.closes x = true) (mine : task cfg x = some root.key) :
    Sole.Of m (s.moved m u) root' := by
  have S := O.roots root hr owns
  have writes := deliver_writes delivered
  have broker : u.broker = t := writes.broker
  have made := Owning.made_of_closes K stepped mem closes
  obtain ⟨once, live⟩ := closes_once stepped (O.kept x) timely mem closes
  have before : root.status.terminal = false := by
    by_contra ended
    rw [S.ended (by simpa using ended) x made mine] at live
    cases live
  have after : root'.status.terminal = true := by
    refine past root' hr' ⟨lasts.key ▸ owns.1, ?_, root', hr', rfl, lasts.instanceId⟩ root' hr' rfl
    rw [lasts.payload]
    rfl
  have unqueued : ¬ (root'.status = .queueing ∨ root.key ∈ u.batch.map (·.key)) := by
    rintro (queueing | listed)
    · rw [queueing] at after
      cases after
    · rw [writes.batch] at listed
      exact S.unsent (.inr listed) x made mine
  have old (y) (hy : y ∈ u.broker.created) (ofY : task cfg y = some root.key) :
      y ∈ s.tracker.broker.created := made_of_turn own stepped (broker ▸ hy) ofY
  unfold Sole.Of
  rw [lasts.key, ownSnapshot_label lasts.label]
  refine
    { made := S.made
      alone := ⟨(deps_deliver delivered) ▸ S.alone.upstreams, fun row mem atKey => ?_⟩
      leased := fun listed => absurd (.inr listed) unqueued
      unsent := fun waits => absurd waits unqueued
      sole := fun y hy z hz ofY ofZ => S.sole y (old y hy ofY) z (old z hz ofZ) ofY ofZ
      session := fun y hy ofY => writes.home ▸ S.session y (old y hy ofY) ofY
      ended := fun _ y hy ofY => ?_
      spent := ?_ }
  · obtain rfl := eq_of_key unique mem hr' (atKey.trans lasts.key.symm)
    intro running
    rw [running] at after
    cases after
  · obtain rfl := S.sole y (old y hy ofY) x made ofY mine
    exact broker ▸ terminal_of_closed stepped mem closes
  · rw [count_spent, broker, S.spent, O.count_started K hr owns stepped made mine, once, before,
      after]
    rfl

lemma Sole.unclosed (hr : root ∈ s.tracker.store.tasks) (label : root.label = root'.label)
    (status : root.status = root'.status) (stands : Stands root.key s.tracker.store u.store)
    (none : ∀ e ∈ s.tracker.broker.news t, ∀ x, task cfg x = some root.key → e.closes x = false) :
    Sole.Of m (s.moved m u) root' := by
  have S := O.roots root hr owns
  have writes := deliver_writes delivered
  have broker : u.broker = t := writes.broker
  refine .label label status (S.frame (List.Subset.refl _) (S.alone.stands stands)
    (fun listed => writes.batch ▸ listed) (fun x made mine => ?_) (fun x known => ?_)
    (fun x past => ?_) ?_)
  · exact made_of_turn own stepped (broker ▸ made) mine
  · exact writes.home ▸ known
  · exact broker ▸ terminal_of_step stepped (O.kept x) timely past
  · rw [count_spent, broker, Nat.add_eq_left, count_eq_zero]
    intro started
    obtain ⟨x, starts, same⟩ := mem_map.mp started
    obtain ⟨e, mem, starts⟩ := mem_filterMap.mp starts
    have quiet := none e mem x (O.task_of_started K hr owns stepped mem starts same)
    rw [(deletes_eq_some.mp starts).1] at quiet
    cases quiet

end Turn

namespace Owning
variable {s s' : Snapshots cfg}

lemma turn {act : Broker.Action} (O : Owning m s) (K : Kept m s) (own : ownTurn cfg act = true)
    (timely : Timely s.tracker.broker act) (orderly : ∀ t ∈ Broker.step s.tracker.broker act,
      Orderly m (s.tracker.broker.news t) os { s.tracker with broker := t })
    (h : s.tracker.turn act os = some u) : Owning m (s.moved m u) := by
  obtain ⟨t, taken, stepped, delivered⟩ := turn_cases h
  have writes := deliver_writes delivered
  have broker : u.broker = t := writes.broker
  obtain ⟨lasts, timed, -⟩ := deliver_orderly (orderly t taken) delivered
  have old : ∀ t' ∈ u.store.tasks, Owns m t' → ∃ root ∈ s.tracker.store.tasks,
      Owns m root ∧ root.Lasts t' := fun t' mem owns => by
    obtain ⟨root, hr, stays⟩ := (lasts.old t' mem).resolve_left id
    exact ⟨root, hr, owns.label stays.label.symm, stays⟩
  refine ⟨fun x => ?_, ?_, ?_, fun snap mem => ?_, fun root' hr' owns' => ?_⟩
  · exact broker ▸ (O.kept x).step stepped timely
  · exact writes.batch ▸ O.batch
  · refine O.apart_of_labels fun t' mem owns => ?_
    obtain ⟨root, hr, -, stays⟩ := old t' mem owns
    exact ⟨root, hr, stays.label.symm⟩
  · rw [← count_pos_iff, count_spent, broker, Nat.add_pos_iff_pos_or_pos,
      count_pos_iff, count_pos_iff] at mem
    rcases mem with spent | new
    · exact O.made snap spent
    · obtain ⟨x, starts, rfl⟩ := mem_map.mp new
      obtain ⟨e, mem, starts⟩ := mem_filterMap.mp starts
      obtain ⟨root, hr, owns, -, snap⟩ := root_of_started K stepped mem starts
      exact snap ▸ (O.roots root hr owns).made
  · obtain ⟨root, hr, owns, stays⟩ := old root' hr' owns'
    have S := O.roots root hr owns
    by_cases closing : ∃ e ∈ s.tracker.broker.news t, ∃ x, task cfg x = some root.key ∧
        e.closes x = true
    · obtain ⟨e, mem, x, mine, closes⟩ := closing
      obtain ⟨registered, named⟩ := S.session x (made_of_closes K stepped mem closes) mine
      have name : m.snapshotName x ≠ [] := by
        have same : m.snapshotName x = (m.workload root.payload).snapshotName :=
          congrArg (·.2) named
        exact same ▸ owns.2
      have starts : s.tracker.deletes m e = some x := deletes_eq_some.mpr
        ⟨closes, registered, (isRoot_eq mine).mpr owns.1, name⟩
      have past := timed x (mem_filterMap.mpr ⟨e, mem, starts⟩)
      rw [named] at past
      exact Sole.closed O K own timely stepped delivered owns hr hr' stays
        (lasts.unique K.unique) past mem closes mine
    · have none : ∀ e ∈ s.tracker.broker.news t, ∀ x, task cfg x = some root.key →
          e.closes x = false := fun e mem x mine => by
        by_contra closes
        exact closing ⟨e, mem, x, mine, by simpa using closes⟩
      have quiet : ∀ e ∈ s.tracker.broker.news t, ∀ x, task cfg x = some root.key →
          e ≠ .updateTaskResult x ∧ e.closes x = false := by
        refine fun e mem x mine => ⟨?_, none e mem x mine⟩
        rintro rfl
        obtain ⟨d, listed, closes⟩ := closes_of_result stepped mem
        rw [none d listed x mine] at closes
        cases closes
      have alone : ({ s.tracker with broker := t } : TaskTracker cfg).store.Alone root.key :=
        S.alone
      have stands := stands_deliver alone quiet delivered
      obtain ⟨before, hb, label, status⟩ := stands.old root' hr' stays.key
      have key : before.key = root.key := (congrArg (·.1) label).trans stays.key
      exact Sole.unclosed O K own timely stepped delivered (owns'.label label) hb label status
        (key ▸ stands) (key ▸ none)

end Owning

lemma polled_row (unique : st.UniqueKeys) (mem : t' ∈ (pollTasksOnce st leaser).1.tasks) :
    ∃ t ∈ st.tasks, t.label = t'.label ∧
      (t = t' ∧ t'.key ∉ (pollTasksOnce st leaser).2.map (·.key) ∨
        t.status = .queueing ∧ t'.status = .leased) := by
  obtain ⟨t, ht, rfl⟩ := mem_map.mp mem
  refine ⟨t, ht, ?_⟩
  dsimp only
  split
  · next chosen => exact ⟨rfl, .inr ⟨(ready_of_available unique ht chosen).1, rfl⟩⟩
  · next unchosen =>
    refine ⟨rfl, .inl ⟨rfl, fun listed => unchosen ?_⟩⟩
    simp only [pollTasksOnce, List.map_map, List.mem_map, List.mem_filter] at listed
    obtain ⟨other, ⟨-, chosen⟩, same⟩ := listed
    rwa [← same]

lemma Sole.poll {v : TaskTracker cfg} (S : Of m s root) (unique : s.tracker.store.UniqueKeys)
    (store : v.store = (pollTasksOnce s.tracker.store leaser).1)
    (broker : v.broker = s.tracker.broker) (home : v.home = s.tracker.home)
    (batch : v.batch = s.tracker.batch ∨ v.batch = (pollTasksOnce s.tracker.store leaser).2)
    (label : root.label = root'.label) (row : root = root' ∧ root'.key ∉ (pollTasksOnce
      s.tracker.store leaser).2.map (·.key) ∨ root.status = .queueing ∧ root'.status = .leased) :
    Of m { s with tracker := v } root' := by
  have alone : v.store.Alone root.key := by
    refine ⟨fun d dep => S.alone.upstreams d (by rwa [store] at dep), fun t' mem atKey => ?_⟩
    rw [store] at mem
    obtain ⟨t, ht, same, ⟨rfl, -⟩ | ⟨-, leased⟩⟩ := polled_row unique mem
    · exact S.alone.status t ht atKey
    · rw [leased]
      simp
  rcases row with ⟨rfl, unlisted⟩ | ⟨queueing, leased⟩
  · refine S.frame (List.Subset.refl _) alone (fun mem => ?_) (fun x made _ => ?_)
      (fun x known => ?_) (fun x past => ?_) rfl
    · rcases batch with same | polled
      · exact same ▸ mem
      · exact absurd (polled ▸ mem) unlisted
    · exact broker ▸ made
    · exact home ▸ known
    · exact broker ▸ past
  · have free (x) (made : x ∈ v.broker.created) : task cfg x ≠ some root.key :=
      S.unsent (.inl queueing) x (broker ▸ made)
    have unspent := S.spent
    rw [queueing] at unspent
    unfold Of
    rw [← show root.key = root'.key from congrArg (·.1) label, ← ownSnapshot_label label, leased]
    exact
      { made := S.made
        alone := alone
        leased := fun _ => rfl
        unsent := fun _ => free
        sole := fun x made _ _ mine => absurd mine (free x made)
        session := fun x made mine => absurd mine (free x made)
        ended := fun _ x made mine => absurd mine (free x made)
        spent := unspent }

lemma Owning.poll {s : Snapshots cfg} (O : Owning m s) (K : Kept m s)
    (store : v.store = (pollTasksOnce s.tracker.store leaser).1)
    (broker : v.broker = s.tracker.broker) (home : v.home = s.tracker.home)
    (batch : v.batch = s.tracker.batch ∨ v.batch = (pollTasksOnce s.tracker.store leaser).2) :
    Owning m { s with tracker := v } := by
  refine ⟨fun x => broker ▸ O.kept x, ?_, ?_, O.made, fun root' mem owns' => ?_⟩
  · rcases batch with same | polled
    · simp only [same]
      exact O.batch
    · simp only [polled]
      exact (pollTasksOnce_batch leaser K.unique).1
  · refine O.apart_of_labels fun t' mem _ => ?_
    simp only [store] at mem
    obtain ⟨root, hr, label, -⟩ := polled_row K.unique mem
    exact ⟨root, hr, label⟩
  · simp only [store] at mem
    obtain ⟨root, hr, label, row⟩ := polled_row K.unique mem
    exact (O.roots root hr (owns'.label label)).poll K.unique store broker home batch label row

lemma Kept.label_of_batch {s : Snapshots cfg} (K : Kept m s) (mem : row ∈ s.tracker.batch)
    (hr : root ∈ s.tracker.store.tasks) (same : root.key = row.key) : row.label = root.label := by
  obtain ⟨t, ht, label⟩ := K.known row mem
  obtain rfl := eq_of_key K.unique ht hr ((congrArg (·.1) label).trans same.symm)
  exact label.symm

lemma Sole.launched {s : Snapshots cfg} (S : Of m s root)
    (listed : root.key ∈ s.tracker.batch.map (·.key)) (unlisted : root.key ∉ u.batch.map (·.key))
    (store : u.store = s.tracker.store) (created : u.broker.created = x :: s.tracker.broker.created)
    (registered : (u.home x).isSome = true) (named : snapshot m cfg x = ownSnapshot m root) :
    Of m { s with tracker := u } root := by
  have leased := S.leased listed
  have first : ∀ y ∈ u.broker.created, task cfg y = some root.key → y = x := by
    intro y made mine
    rw [created] at made
    exact (mem_cons.mp made).resolve_right fun old => S.unsent (.inr listed) y old mine
  refine
    { made := S.made
      alone := store ▸ S.alone
      leased := fun mem => absurd mem unlisted
      unsent := ?_
      sole := fun y hy z hz ofY ofZ => (first y hy ofY).trans (first z hz ofZ).symm
      session := fun y hy ofY => first y hy ofY ▸ ⟨registered, named⟩
      ended := fun past => ?_
      spent := S.spent }
  · rintro (queueing | mem)
    · rw [leased] at queueing
      cases queueing
    · exact absurd mem unlisted
  · rw [leased] at past
    cases past

lemma Owning.process (O : Owning m s) (K : Kept m s)
    (outlasting : Outlasting m setup s (.tracker (.process x c) found))
    (owned : Owned m setup s (.tracker (.process x c) found))
    (polled : Polled m s.tracker u found (.process x c))
    (h : s.tracker.process setup x c = some u) : Owning m (s.moved m u) := by
  have taken : Tracker.step setup s.tracker (.process x c) = some u := h
  obtain ⟨kept, ended⟩ := kept_of_tracked taken (by simp) O.kept
  obtain ⟨row, rest, batch, sublist, home, dispatched⟩ := dispatched h
  have left := sublist.map (·.key)
  have fewer : (u.batch.map (·.key)).Sublist (s.tracker.batch.map (·.key)) := by
    rw [batch]
    exact left.cons _
  have mem : row ∈ s.tracker.batch := by simp [batch]
  have head : row ∈ s.tracker.batch.head? := by simp [batch]
  have whole : ∀ root ∈ s.tracker.store.tasks, Owns m root → root.key = row.key →
      (setup.unmarshal row.payload).toShard = false ∧
        s.tracker.isCancelled row.key.jobId = false :=
    fun root hr owns same => owned row head (owns.label (K.label_of_batch mem hr same))
  have stands : ∀ root ∈ s.tracker.store.tasks, Owns m root →
      Stands root.key s.tracker.store u.store := fun root hr owns =>
    stands_process batch (O.roots root hr owns).alone owns.1
      (fun same => (whole root hr owns same.symm).1) h
  have idles := dispatched.idles
  cases dispatched with
  | sharded divides broker lasts =>
    rw [idles.moved]
    refine O.frame (lasts (outlasting row head divides)) (fun l shard => ?_) stands kept ended
      fewer (List.Subset.refl _) (fun y made => .inl (broker ▸ made)) home (.refl _)
    rw [shard.1]
    exact cons_ne_nil _ _
  | skipped broker store =>
    have lasts : Lasts (fun _ => False) s.tracker.store u.store := .of_tasks (by rw [store])
    rw [idles.moved]
    exact O.frame lasts (fun l new => new.elim) stands kept ended fewer (List.Subset.refl _)
      (fun y made => .inl (broker ▸ made)) home (.refl _)
  | launched unmade created events store own instanceId registered =>
    rw [idles.moved]
    have made : x ∈ u.broker.created := created ▸ mem_cons_self
    refine ⟨kept, O.batch.sublist fewer, ?_, O.made, fun root hr owns => ?_⟩
    · simp only [store]
      exact O.apart
    · simp only [store] at hr
      have S := O.roots root hr owns
      by_cases same : root.key = row.key
      · have label := K.label_of_batch mem hr same
        have listed : root.key ∈ s.tracker.batch.map (·.key) := by simp [batch, same]
        have unlisted : root.key ∉ u.batch.map (·.key) := fun still => by
          have nodup := O.batch
          rw [batch, map_cons, nodup_cons] at nodup
          exact nodup.1 (same ▸ left.subset still)
        have name : m.snapshotName x = (m.workload root.payload).snapshotName := by
          rw [polled unmade made row head, polledName, if_pos (same ▸ owns.1)]
          exact congrArg (fun l => (m.workload l.2.2).snapshotName) label
        have atInstance : (cfg.request x).key.instanceId = root.instanceId :=
          instanceId.trans (congrArg (·.2.1) label)
        exact S.launched listed unlisted store created (registered (whole root hr owns same).2)
          (Prod.ext atInstance name)
      · refine S.frame (List.Subset.refl _) (S.alone.stands (stands root hr owns))
          (fewer.subset ·) (fun y hy mine => ?_) home ended rfl
        have hy : y ∈ x :: s.tracker.broker.created := created ▸ hy
        refine (mem_cons.mp hy).resolve_left fun new => same ?_
        subst new
        rw [own] at mine
        exact (Option.some.inj mine).symm

section Submit
variable {s : Snapshots cfg} {inBatch : Bool} {req : Jobs.SessionRequest} {calls : Jobs.Calls}
  {r : TaskStore.SessionRequest} {root : Task}

lemma root_of_submit {spent : List Snapshot} (stores : Stores m inBatch req calls r)
    (clear : Clear m spent st r) (given : inBatch = false → req.snapshotName = [])
    (new : r.Makes st root.label) (owns : Owns m root) :
    inBatch = false ∧ root.key = r.taskId ∧ ownSnapshot m root ∈ made false req calls := by
  obtain ⟨name, label, named⟩ := new
  obtain ⟨-, instanceId, workload, place⟩ := stores
  have key : root.key = ⟨r.taskId.parentId, name⟩ := congrArg (·.1) label
  have payload : root.payload = r.workload := congrArg (·.2.2) label
  have top : r.taskId.parentId = [] := (congrArg (·.parentId) key).symm.trans owns.1
  cases inBatch with
  | true => exact absurd top place
  | false =>
    refine ⟨rfl, by rw [key, named (clear.free top)], ?_⟩
    have supplied : (m.workload root.payload).snapshotName =
        (req.withSnapshot false calls).snapshotName := by rw [payload, workload]
    have some := owns.2
    rw [supplied, Jobs.withSnapshot_snapshotName] at some
    split at some
    · next makes =>
      rw [made, if_pos makes, mem_singleton, ownSnapshot, supplied,
        Jobs.withSnapshot_snapshotName, if_pos makes]
      exact congrArg (·, _) ((congrArg (·.2.1) label).trans instanceId)
    · exact absurd (given rfl) some

lemma Owning.submit {key : TaskKey} {count : Int} (O : Owning m s) (K : Kept m s)
    (stores : Stores m inBatch req calls r) (clear : Clear m (s.spent m) s.tracker.store r)
    (owned : Owned m setup s (.submit inBatch req calls r now false))
    (created : createTask s.tracker.store r now = some (st, key, count)) :
    Owning m { s with
      created := Tracker.made inBatch req calls ++ s.created
      tracker := { s.tracker with store := st } } := by
  have added := appended_createTask created
  obtain ⟨links, name, status, tasks, deps, linked, -, -, -, -, started⟩ :=
    createTask_cases created
  have downstream : ∀ d ∈ links, d.downstream = r.taskId := fun d mem => by
    obtain ⟨dep, -, rfl⟩ := mem_map.mp (linked.subset mem)
    rfl
  have fresh : r.taskId.parentId = [] → ∀ t ∈ s.tracker.store.tasks, t.key ≠ r.taskId := by
    intro top t ht same
    have free := clear.free top
    rw [← same, find_of_mem K.unique ht] at free
    cases free
  have root_new : ∀ root, r.Makes s.tracker.store root.label → Owns m root →
      inBatch = false ∧ root.key = r.taskId ∧ ownSnapshot m root ∈ Tracker.made false req calls :=
    fun root => root_of_submit stores clear fun top => (owned top).1
  refine ⟨O.kept, O.batch, ?_, fun snap mem => mem_append_right _ (O.made snap mem),
    fun root hr owns => ?_⟩
  · -- A snapshot that is made is not one of another job.
    have unmade : ∀ root other, r.Makes s.tracker.store root.label → Owns m root →
        other ∈ s.tracker.store.tasks → Owns m other →
        ownSnapshot m root ≠ ownSnapshot m other := by
      intro root other new owns ho otherOwns same
      obtain ⟨top, -, makes⟩ := root_new root new owns
      exact ((owned top).2 _ makes).1 (same ▸ (O.roots other ho otherOwns).made)
    intro root hr other ho owns otherOwns same
    rcases added.old root hr with old | new
    · rcases added.old other ho with old' | new'
      · exact O.apart root old other old' owns otherOwns same
      · exact absurd same.symm (unmade other root new' otherOwns old owns)
    · rcases added.old other ho with old' | new'
      · exact absurd same (unmade root other new owns old' otherOwns)
      · rw [(root_new root new owns).2.1, (root_new other new' otherOwns).2.1]
  · rcases added.old root hr with old | new
    · have S := O.roots root old owns
      refine S.frame (subset_append_right ..) ⟨fun d dep => ?_, fun t ht atKey => ?_⟩
        id (fun _ made _ => made) (fun _ => id) (fun _ => id) rfl
      · simp only [deps] at dep
        rcases mem_append.mp dep with before | link
        · exact S.alone.upstreams d before
        · rw [downstream d link]
          intro same
          exact fresh (same ▸ owns.1) root old same.symm
      · simp only [tasks] at ht
        rcases mem_append.mp ht with before | row
        · exact S.alone.status t before atKey
        · cases mem_singleton.mp row
          rcases started with queueing | ⟨failed, -⟩
          · simp [SessionRequest.row, queueing]
          · simp [SessionRequest.row, failed]
    · obtain ⟨top, atKey, makes⟩ := root_new root new owns
      obtain ⟨unmade, independent, unlinked, unsent⟩ := (owned top).2 _ makes
      have atRoot : r.taskId.parentId = [] := atKey ▸ owns.1
      have free : ∀ x ∈ s.tracker.broker.created, task cfg x ≠ some root.key := by
        rw [atKey]
        exact unsent
      have rows : ∀ t ∈ st.tasks, t.key = root.key → t.status = .queueing := by
        intro t ht same
        rw [tasks] at ht
        rcases mem_append.mp ht with before | row
        · exact absurd (same.trans atKey) (fresh atRoot t before)
        · cases mem_singleton.mp row
          refine started.resolve_right fun failed => ?_
          simp [SessionRequest.dependencyRows, independent] at failed
      have unspent : ownSnapshot m root ∉ s.spent m := fun spent => unmade (O.made _ spent)
      refine
        { made := mem_append_left _ (top ▸ makes)
          alone := ⟨fun d dep => ?_, fun t ht same => ?_⟩
          leased := fun listed => ?_
          unsent := fun _ => free
          sole := fun x hx _ _ mine => absurd mine (free x hx)
          session := fun x hx mine => absurd mine (free x hx)
          ended := fun _ x hx mine => absurd mine (free x hx)
          spent := ?_ }
      · rw [atKey]
        simp only [deps] at dep
        have none : links = [] := by
          simpa [SessionRequest.dependencyRows, independent] using linked
        rw [none, append_nil] at dep
        exact unlinked d dep
      · rw [rows t ht same]
        simp
      · obtain ⟨row, listed, same⟩ := mem_map.mp listed
        obtain ⟨t, ht, label⟩ := K.known row listed
        exact absurd ((congrArg (·.1) label).trans (same.trans atKey)) (fresh atRoot t ht)
      · rw [rows root hr rfl]
        exact count_eq_zero.mpr unspent

end Submit

lemma stands_upkeep {s : Snapshots cfg} (K : Kept m s)
    (owned : Owned m setup s (.tracker act found)) (kind : upkeep act = true)
    (hr : root ∈ s.tracker.store.tasks) (owns : Owns m root)
    (alone : s.tracker.store.Alone root.key) (h : step setup s.tracker act = some u) :
    Stands root.key s.tracker.store u.store := by
  cases act with
  | cancelRows jobId now =>
    cases h
    refine .cancelJob fun t ht atKey job => ?_
    obtain rfl := eq_of_key K.unique ht hr atKey
    have queueing := owned t ht job owns
    have running := alone.status t ht rfl
    cases status : t.status <;> simp_all [Status.cancellable]
  | cancelJob jobId =>
    cases h
    unfold TaskTracker.cancelJob
    dsimp only
    split <;> exact .refl _
  | renewLeaser identity now | addPool name =>
    cases h
    exact .refl _
  | releaseExpiredLeaser lastLeaseTime =>
    cases h
    refine .releaseLeases fun t ht released atKey => ?_
    obtain rfl := eq_of_key K.unique ht hr atKey
    exact owned t ht released owns
  | _ => cases kind

namespace Owning
variable {s s' : Snapshots cfg}

lemma init : Owning m (init : Snapshots cfg) where
  kept x := Broker.kept_of_reachable x (fun _ _ => id)
    (Reachable.start : Reachable Broker.step Timely .init .init)
  batch := nodup_nil
  apart := by simp [Snapshots.init, TaskTracker.init, Store.empty]
  made := by simp [Snapshots.spent, Snapshots.init]
  roots := by simp [Snapshots.init, TaskTracker.init, Store.empty]

lemma aside (O : Owning m s) {t : State cfg} (kept : ∀ x, t.Kept x) (ended : ∀ x,
      (s.tracker.broker.sessions x).status.terminal = true → (t.sessions x).status.terminal = true)
    (created : ∀ x ∈ t.created, x ∈ s.tracker.broker.created ∨ task cfg x = none) :
    Owning m { s with created := new ++ s.created, tracker := { s.tracker with broker := t } } := by
  have lasts : Lasts (fun _ => False) s.tracker.store s.tracker.store := .refl _
  refine O.frame lasts (fun _ new => new.elim) (fun _ _ _ => .refl _) kept ended
    (List.Sublist.refl _) (subset_append_right ..) (fun x mem => ?_) (fun _ => id) (.refl _)
  refine (created x mem).imp_right fun none k mine => ?_
  rw [none] at mine
  cases mine

lemma background (O : Owning m s) (taken : Tracker.step setup s.tracker act = some u)
    (timely : ∀ b os, act = .broker b os → Timely s.tracker.broker b) (h : s.tracker.Background u)
    (stands : ∀ root ∈ s.tracker.store.tasks,
      Owns m root → Stands root.key s.tracker.store u.store) : Owning m (s.moved m u) := by
  obtain ⟨kept, ended⟩ := kept_of_tracked taken timely O.kept
  rw [h.idles.moved]
  exact O.frame h.store (fun _ new => new.elim) stands kept ended (by rw [h.batch])
    (List.Subset.refl _) (fun x made => .inl (h.created ▸ made)) (fun _ => h.home ▸ id) (.refl _)

lemma elsewhere (O : Owning m s) (K : Kept m s)
    (outlasting : Outlasting m setup s (.tracker (.elsewhere op) found))
    (owned : Owned m setup s (.tracker (.elsewhere op) found))
    (taken : Tracker.step setup s.tracker (.elsewhere op) = some u) : Owning m (s.moved m u) := by
  have background := background_elsewhere K.unique (fun k result clock same => by
    subst same
    exact outlasting) taken
  have standing := O.background taken (by simp) background
  simp only [Tracker.step] at taken
  split at taken
  · next other =>
    obtain ⟨st, stepped, rfl⟩ := map_eq_some_iff.mp taken
    rcases op with (⟨r, now⟩ | leaser | ⟨k, result, clock⟩) | ⟨jobId, now⟩ | expired | ⟨k, leaser⟩
    · cases other
    · cases stepped
      rw [background.idles.moved]
      exact O.poll K rfl rfl rfl (.inl rfl)
    · refine standing fun root hr owns => .updateTaskFinalResult (O.roots root hr owns).alone
        (fun same => ?_) stepped
      exact absurd ⟨root, hr, same.symm, owns⟩ owned
    · cases other
    · cases other
    · exact standing fun _ _ _ => .reconnectTask stepped
  · cases taken

lemma fire (O : Owning m s) (timer : s.timers[i]? = some x) : Owning m { s with
      timers := s.timers.eraseIdx i
      deleted := snapshot m cfg x :: s.deleted } := by
  have lasts : Lasts (fun _ => False) s.tracker.store s.tracker.store := .refl _
  refine O.frame lasts (fun _ new => new.elim) (fun _ _ _ => .refl _) O.kept (fun _ => id)
    (List.Sublist.refl _) (List.Subset.refl _) (fun _ => .inl) (fun _ => id) ?_
  obtain ⟨within, rfl⟩ := List.getElem?_eq_some_iff.mp timer
  have moved := (getElem_cons_eraseIdx_perm within).map (snapshot m cfg)
  exact perm_middle.trans (moved.append_right s.deleted)

lemma step {act : SnapshotAction} (O : Owning m s) (K : Kept m s)
    (outlasting : Outlasting m setup s act) (owned : Owned m setup s act)
    (h : s.step m setup act = some s') : Owning m s' := by
  cases stepped h with
  | failed | answered => exact O.aside O.kept (fun _ => id) fun _ => .inl
  | submitted stores created => exact O.submit K stores outlasting owned created
  | opened _ none taken =>
    have stepped := (step_cases taken).2
    refine O.aside (fun x => (O.kept x).step stepped trivial)
      (fun x past => terminal_of_step stepped (O.kept x) trivial past) fun y made => ?_
    rcases made_of_step stepped made with old | ⟨added, -⟩ | ⟨a, registers⟩
    · exact .inl old
    · cases added
      exact .inr none
    · cases registers
  | @tracked act found u inside taken polled =>
    cases act with
    | broker act os =>
      simp only [Tracker.step] at taken
      split at taken
      · next own => exact O.turn K own owned outlasting taken
      · cases taken
    | create => cases inside
    | poll =>
      simp only [Tracker.step, TaskTracker.poll] at taken
      split at taken
      · cases taken
        rw [Idles.moved]
        · exact O.poll K rfl rfl rfl (.inr rfl)
        · exact .of_events rfl
      · cases taken
    | process x c => exact O.process K outlasting owned polled taken
    | register a x o =>
      obtain ⟨lasts, batch, created, idles, home, stands⟩ := reported_cases taken
      obtain ⟨kept, ended⟩ := kept_of_tracked taken (by simp) O.kept
      rw [idles.moved]
      refine O.frame lasts (fun _ new => new.elim) (fun root _ _ => stands root.key) kept ended
        (by rw [batch]) (List.Subset.refl _) (fun y made => ?_) home (.refl _)
      have made : y ∈ x :: s.tracker.broker.created := created ▸ made
      rcases mem_cons.mp made with rfl | old
      · exact .inr owned
      · exact .inl old
    | goroutine i ctxDone o =>
      refine O.background taken (by simp) (background_goroutine taken)
        fun root hr owns => stands_goroutine (O.roots root hr owns).alone
          (fun g found mine => ?_) taken
      exact owned g found _ mine ⟨root, hr, rfl, owns⟩
    | elsewhere op => exact O.elsewhere K outlasting owned taken
    | _ =>
      exact O.background taken (by simp) (background_upkeep (by simp [upkeep]) taken)
        fun root hr owns => stands_upkeep K owned (by simp [upkeep]) hr owns
          (O.roots root hr owns).alone taken
  | @fired i x fails timer =>
    obtain rfl : fails = false := owned
    exact O.fire timer

end Owning

lemma owning_of_reachable (h : Reachable (Snapshots.step m setup) (fun s act => Outlasting m setup s
      act ∧ Owned m setup s act) .init s) : Kept m s ∧ Owning m s :=
  h.invariant (I := fun s => Kept m s ∧ Owning m s) ⟨.init, .init⟩ fun _ _ _ holds ok taken =>
    ⟨holds.1.step ok.1 taken, holds.2.step holds.1 ok.1 ok.2 taken⟩

def submitsNamed : List SnapshotAction :=
  [.tracker (.addPool "pool") true,
    .submit false
      { instanceId := 0, snapshotName := ['s'], writableDirs := [['/', 'd']], workload := some {} }
      jobCalls { taskId := ⟨[], "p"⟩, dependencies := [], pool := "pool" } 1 false]

end Velda.Tracker
