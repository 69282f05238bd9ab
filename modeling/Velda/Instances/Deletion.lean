import Velda.Tracker.Executions

/-! `DeleteInstance` of `instances.go` beside a broker with its tracker. The call lists the sessions
of the instance and kills them until a listing is empty, and only then deletes. Nothing keeps a
new session out after that listing: the liveness check of `RequestSession` is only logged, and
the callback of a poll and an agent that connects make none. -/
namespace Velda.Instances
open Lib Broker Tracker List Option

/-- Where a call of `DeleteInstance` is: before a listing, with keys that are still to be killed,
at the ticker, before `DeleteInstance` of the database, with the transaction open and the
storage about to be deleted, before the commit, or back. -/
inductive Phase
  | listing
  | killing (rest : List SessionKey)
  | waiting
  | opening
  | deleting
  | committing
  | returned (ok : Bool)
  deriving DecidableEq

/-- The last listing was empty, and the call goes on. -/
def Phase.settled : Phase → Bool
  | .opening | .deleting | .committing => true
  | _ => false

/-- The call makes a call of its own next, which may fail. -/
def Phase.calls : Phase → Bool
  | .waiting | .killing [] | .returned _ => false
  | _ => true

structure Deletion where
  instanceId : Int
  phase : Phase
  deriving DecidableEq

/-- The tracker, the calls that were made, and the instances whose storage was deleted. -/
structure Service (cfg : Config) where
  tracker : TaskTracker cfg
  deletions : List Deletion
  deleted : List Int

variable {cfg : Config}

def listSessions (s : State cfg) (instanceId : Int) : List SessionKey :=
  (s.created.filter fun x =>
    (cfg.key x).instanceId = instanceId ∧ s.db.sessions (cfg.key x) = some x).map cfg.key

inductive Action
  | tracker (act : Tracker.Action)
  | deleteInstance (instanceId : Int)
  /-- The next call of a deletion, whether it fails, and which session is killed next. -/
  | proceed (i : Nat) (fails : Bool) (pick : Nat)
  /-- The context of a deletion that waits is done. -/
  | ctxDone (i : Nat)

namespace Service

def init : Service cfg := ⟨.init, [], []⟩

def goes (s : Service cfg) (i : Nat) (d : Deletion) (phase : Phase) : Service cfg :=
  { s with deletions := s.deletions.set i { d with phase := phase } }

/-- `KillSession` with `force`; `false` is an error. -/
def killSession (s : Service cfg) (k : SessionKey) : Option (Service cfg × Bool) :=
  match s.tracker.broker.db.sessions k with
  | none => some (s, false)
  | some x =>
    (s.tracker.turn (.kill x true) []).map fun u =>
      ({ s with tracker := u }, (s.tracker.broker.kill x true).2)

def proceed (s : Service cfg) (i : Nat) (d : Deletion) (pick : Nat) : Option (Service cfg) :=
  match d.phase with
  | .listing =>
    match listSessions s.tracker.broker d.instanceId with
    | [] => some (s.goes i d .opening)
    | keys => some (s.goes i d (.killing keys))
  | .killing [] => some (s.goes i d .waiting)
  | .killing (k :: rest) =>
    ((k :: rest)[pick]?).bind fun k' =>
      (s.killSession k').map fun (s, ok) =>
        s.goes i d (if ok then .killing ((k :: rest).eraseIdx pick) else .returned false)
  | .waiting => some (s.goes i d .listing)
  | .opening => some (s.goes i d .deleting)
  | .deleting => some { s.goes i d .committing with deleted := d.instanceId :: s.deleted }
  | .committing => some (s.goes i d (.returned true))
  | .returned _ => none

def step (setup : Setup) (s : Service cfg) : Action → Option (Service cfg)
  | .tracker act => (Tracker.step setup s.tracker act).map fun u => { s with tracker := u }
  | .deleteInstance instanceId =>
    some { s with deletions := s.deletions ++ [⟨instanceId, .listing⟩] }
  | .proceed i fails pick =>
    s.deletions[i]?.bind fun d =>
      if fails then if d.phase.calls then some (s.goes i d (.returned false)) else none
      else s.proceed i d pick
  | .ctxDone i =>
    s.deletions[i]?.bind fun d =>
      if d.phase = .waiting then some (s.goes i d (.returned false)) else none

end Service

/-- No session is made for an instance between the last listing of a deletion and its return. -/
def Undisturbed (s : Service cfg) : Action → Prop
  | .tracker act => ∀ x ∈ adds act, ∀ d ∈ s.deletions, d.phase.settled = true →
      (cfg.key x).instanceId ≠ d.instanceId
  | _ => True

instance (s : Service cfg) (act : Action) : Decidable (Undisturbed s act) := by
  induction act using Action.casesOn <;> unfold Undisturbed <;> infer_instance

def Vacant (s : State cfg) (instanceId : Int) : Prop :=
  ∀ k, k.instanceId = instanceId → s.db.sessions k = none

def Listed (s : State cfg) : Prop := ∀ k x, s.db.sessions k = some x → x ∈ s.created ∧ cfg.key x = k

lemma Listed.step (L : Listed s) (h : Step s act t) : Listed t := by
  intro k x entry
  rcases entry_of_step h entry with old | ⟨own, rfl | ⟨a, rfl⟩⟩
  · exact ⟨created_of_step h (L k x old).1, (L k x old).2⟩
  · cases h
    exact ⟨mem_cons_self, own⟩
  · cases h
    exact ⟨mem_cons_self, own⟩

lemma vacant_of_listSessions {s : State cfg} (L : Listed s) {instanceId : Int}
    (empty : listSessions s instanceId = []) : Vacant s instanceId := by
  intro k own
  by_contra some
  obtain ⟨x, entry⟩ := ne_none_iff_exists'.mp some
  obtain ⟨made, rfl⟩ := L k x entry
  have mem : cfg.key x ∈ listSessions s instanceId :=
    mem_map_of_mem (mem_filter.mpr ⟨made, by simp [own, entry]⟩)
  rw [empty] at mem
  cases mem

lemma Vacant.step {s t : State cfg} {instanceId : Int} (vacant : Vacant s instanceId)
    (h : Step s act t) (elsewhere : ∀ x, act = .addSession x ∨ (∃ a, act = .register a x) → (cfg.key
      x).instanceId ≠ instanceId) : Vacant t instanceId := by
  intro k own
  by_contra some
  obtain ⟨x, entry⟩ := ne_none_iff_exists'.mp some
  rcases entry_of_step h entry with old | ⟨same, made⟩
  · rw [vacant k own] at old
    cases old
  · exact elsewhere x made (same ▸ own)

/-- While a deletion is past its last listing, the instance has no session. -/
structure Quiet (s : Service cfg) : Prop where
  listed : Listed s.tracker.broker
  vacant : ∀ d ∈ s.deletions, d.phase.settled = true → Vacant s.tracker.broker d.instanceId

namespace Quiet
variable {s t : Service cfg} {setup : Setup}

lemma init : Quiet (Service.init : Service cfg) where
  listed _ _ entry := by cases entry
  vacant := by simp [Service.init]

lemma goes (Q : Quiet s) {phase : Phase}
    (vacant : phase.settled = true → Vacant s.tracker.broker d.instanceId) :
    Quiet (s.goes i d phase) where
  listed := Q.listed
  vacant e mem settled := by
    rcases mem_or_eq_of_mem_set mem with old | rfl
    · exact Q.vacant e old settled
    · exact vacant settled

lemma tracker (Q : Quiet s) (ok : Undisturbed s (.tracker act))
    (h : Tracker.step setup s.tracker act = some u) : Quiet { s with tracker := u }  where
  listed := broker_rule h (fun _ _ _ _ _ L stepped => L.step stepped) Q.listed
  vacant d mem settled :=
    broker_rule h (I := fun b => Vacant b d.instanceId)
      (fun _ _ _ made _ vacant stepped => vacant.step stepped fun x adds =>
        ok x (made x adds) d mem settled) (Q.vacant d mem settled)

lemma killSession {k : SessionKey} (Q : Quiet s) (h : s.killSession k = some (t, ok)) :
    Quiet t := by
  unfold Service.killSession at h
  split at h
  · cases h
    exact Q
  · obtain ⟨u, turned, same⟩ := map_eq_some_iff.mp h
    cases same
    obtain ⟨w, -, stepped, delivered⟩ := TaskTracker.turn_cases turned
    have broker : u.broker = w := (TaskTracker.deliver_writes delivered).broker
    refine ⟨?_, fun d mem settled => ?_⟩
    · rw [broker]
      exact Q.listed.step stepped
    · rw [broker]
      exact (Q.vacant d mem settled).step stepped (by simp)

lemma proceed (Q : Quiet s) (mem : d ∈ s.deletions) (h : s.proceed i d pick = some t) :
    Quiet t := by
  unfold Service.proceed at h
  split at h
  · split at h
    · next empty =>
      cases h
      exact Q.goes fun _ => vacant_of_listSessions Q.listed empty
    · cases h
      exact Q.goes (by simp [Phase.settled])
  · cases h
    exact Q.goes (by simp [Phase.settled])
  · obtain ⟨k, -, taken⟩ := bind_eq_some_iff.mp h
    obtain ⟨⟨v, ok⟩, killed, rfl⟩ := map_eq_some_iff.mp taken
    refine (Q.killSession killed).goes ?_
    cases ok <;> simp [Phase.settled]
  · cases h
    exact Q.goes (by simp [Phase.settled])
  · next phase =>
    cases h
    exact Q.goes fun _ => Q.vacant d mem (by simp [phase, Phase.settled])
  · next phase =>
    cases h
    have goes : Quiet (s.goes i d .committing) := Q.goes fun _ =>
      Q.vacant d mem (by simp [phase, Phase.settled])
    exact ⟨goes.listed, goes.vacant⟩
  · cases h
    exact Q.goes (by simp [Phase.settled])
  · cases h

lemma step (Q : Quiet s) (ok : Undisturbed s act) (h : s.step setup act = some t) : Quiet t := by
  cases act with
  | tracker act =>
    obtain ⟨u, taken, rfl⟩ := map_eq_some_iff.mp h
    exact Q.tracker ok taken
  | deleteInstance instanceId =>
    cases h
    refine ⟨Q.listed, fun d mem settled => ?_⟩
    rcases mem_append.mp mem with old | new
    · exact Q.vacant d old settled
    · cases mem_singleton.mp new
      cases settled
  | proceed i fails pick =>
    obtain ⟨d, found, rest⟩ := bind_eq_some_iff.mp h
    split at rest
    · split at rest
      · cases rest
        exact Q.goes (by simp [Phase.settled])
      · cases rest
    · exact Q.proceed (mem_of_getElem? found) rest
  | ctxDone i =>
    obtain ⟨d, found, rest⟩ := bind_eq_some_iff.mp h
    split at rest
    · cases rest
      exact Q.goes (by simp [Phase.settled])
    · cases rest

end Quiet

lemma quiet_of_reachable (h : Reachable (Service.step setup) Undisturbed .init s) : Quiet s :=
  h.invariant .init fun _ _ _ Q ok taken => Q.step ok taken

/-- From the call that deletes the storage of an instance until the commit, the database has no
session of it. -/
theorem vacant_while_deleting {s : Service cfg} {setup : Setup}
    (h : Reachable (Service.step setup) Undisturbed .init s) {d : Deletion} (mem : d ∈ s.deletions)
    (phase : d.phase = .deleting ∨ d.phase = .committing) :
    Vacant s.tracker.broker d.instanceId := by
  refine (quiet_of_reachable h).vacant d mem ?_
  rcases phase with phase | phase <;> rw [phase] <;> rfl

def proceeds (n : Nat) : List Action := List.replicate n (.proceed 0 false 0)

theorem vacant_while_deleting_killed :
    ∃ s : Service (pool 1), Reachable (Service.step broker) Undisturbed .init s ∧
      ⟨1, .deleting⟩ ∈ s.deletions ∧ .killed 0 .queueing ∈ s.tracker.broker.events ∧
      Vacant s.tracker.broker 1 := by
  obtain ⟨s, reached, mem, killed⟩ := exists_of_run (Service.step broker)
    Undisturbed (.init : Service (pool 1))
    ((turns (submits 0 0)).map .tracker ++ [.deleteInstance 1] ++ proceeds 3 ++
      (turns [.loop 0 0 .cancelSignal, .scheduler "pool" .removeSession 0,
        .loop 0 0 .cancelConfirm]).map .tracker ++ proceeds 3)
    (fun s => ⟨1, .deleting⟩ ∈ s.deletions ∧ .killed 0 .queueing ∈ s.tracker.broker.events)
    (by decide +kernel)
  exact ⟨s, reached, mem, killed, vacant_while_deleting reached mem (.inl rfl)⟩

/-- A session is requested after the listing, and the storage is deleted under it. -/
theorem deleted_under_session :
    ∃ s : Service (pool 1), Reachable (Service.step broker) Any .init s ∧
      ⟨1, .committing⟩ ∈ s.deletions ∧ 1 ∈ s.deleted ∧ ¬ Vacant s.tracker.broker 1 := by
  obtain ⟨s, reached, mem, gone, entry⟩ := exists_of_run (Service.step broker)
    Any (.init : Service (pool 1))
    ([.deleteInstance 1] ++ proceeds 1 ++ (turns [.addSession 0]).map .tracker ++ proceeds 2)
    (fun s => ⟨1, .committing⟩ ∈ s.deletions ∧ 1 ∈ s.deleted ∧
      s.tracker.broker.db.sessions ⟨1, "0"⟩ = some 0) (by decide +kernel)
  refine ⟨s, reached, mem, gone, fun vacant => ?_⟩
  rw [vacant ⟨1, "0"⟩ rfl] at entry
  cases entry

end Velda.Instances
