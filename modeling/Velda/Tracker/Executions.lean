import Velda.Tracker.Steps

/-! Executions of one task. The queue hands a task out once, and a task is queued again when
its lease is released. A session that an agent reports is made without a look at the
row or at the sessions of the task. -/
namespace Velda.Tracker
open Lib Broker TaskStore TaskTracker

variable {cfg : Config} {tr u : TaskTracker cfg} {setup : Setup}

def isTask (cfg : Config) (x : SessionPtr) : Bool := (task cfg x).isSome

def handed (x : SessionPtr) : Event → Bool
  | .sendSession _ y | .reGrantAccess _ y => y = x
  | _ => false

namespace TaskTracker

def Executes (tr : TaskTracker cfg) (x : SessionPtr) (k : TaskKey) : Prop :=
  tr.broker.Live x ∧ task cfg x = some k ∧ tr.broker.events.any (handed x) = true

instance (tr : TaskTracker cfg) (x : SessionPtr) (k : TaskKey) : Decidable (tr.Executes x k) :=
  inferInstanceAs (Decidable (_ ∧ _ ∧ _))

/-- The broker is about to make a session for the task, or has one that has not ended. -/
def Engaged (tr : TaskTracker cfg) (k : TaskKey) : Prop :=
  k ∈ tr.batch.map (·.key) ∨
    ∃ x ∈ tr.broker.created, tr.broker.Live x ∧ task cfg x = some k

instance (tr : TaskTracker cfg) (k : TaskKey) : Decidable (tr.Engaged k) :=
  inferInstanceAs (Decidable (_ ∨ ∃ x ∈ tr.broker.created, _))

end TaskTracker

/-- Ended sessions of tasks stay ended, agents report executions of leased tasks that the broker
does not work on, and no lease of a task that it works on is released. -/
def Exclusively (tr : TaskTracker cfg) : Action → Prop
  | .broker act _ => Lasting (isTask cfg) tr.broker act
  | .register _ x _ => ∀ k ∈ task cfg x, tr.store.Taken k ∧ ¬ tr.Engaged k
  | .releaseExpiredLeaser lastLeaseTime =>
      ∀ t ∈ tr.store.tasks, t.released (tr.expired lastLeaseTime) = true → ¬ tr.Engaged t.key
  | _ => True

instance (tr : TaskTracker cfg) (act : Action) : Decidable (Exclusively tr act) := by
  induction act using Action.casesOn <;> unfold Exclusively <;> infer_instance

/-- Tasks that the broker works on are out of the queue, each in one place. -/
structure Exclusive (tr : TaskTracker cfg) : Prop where
  unique : tr.store.UniqueKeys
  batch : (tr.batch.map (·.key)).Nodup
  taken : ∀ k, tr.Engaged k → tr.store.Taken k
  apart : ∀ x k, tr.broker.Live x → task cfg x = some k → k ∉ tr.batch.map (·.key)
  sole : ∀ x y k, tr.broker.Live x → tr.broker.Live y → task cfg x = some k →
    task cfg y = some k → x = y

namespace Exclusive

lemma init : Exclusive (init : TaskTracker cfg) where
  unique := List.nodup_nil
  batch := List.nodup_nil
  taken k engaged := by simp [TaskTracker.Engaged, TaskTracker.init, State.init] at engaged
  apart x k live := by simp [State.Live, TaskTracker.init, State.init] at live
  sole x y k live := by simp [State.Live, TaskTracker.init, State.init] at live

section

variable (E : Exclusive tr)
include E

lemma frame (unique : u.store.UniqueKeys)
    (batch : (u.batch.map (·.key)).Sublist (tr.batch.map (·.key)))
    (live : ∀ x, u.broker.Live x → isTask cfg x = true → tr.broker.Live x)
    (taken : ∀ k, tr.Engaged k → tr.store.Taken k → u.store.Taken k) : Exclusive u := by
  have before : ∀ x k, u.broker.Live x → task cfg x = some k → tr.broker.Live x :=
    fun x k alive own => live x alive (by simp [isTask, own])
  refine ⟨unique, E.batch.sublist batch, fun k engaged => ?_, fun x k alive own mem => ?_, ?_⟩
  · have engaged : tr.Engaged k := by
      rcases engaged with mem | ⟨x, -, alive, own⟩
      · exact .inl (batch.subset mem)
      · exact .inr ⟨x, (before x k alive own).1, before x k alive own, own⟩
    exact taken k engaged (E.taken k engaged)
  · exact E.apart x k (before x k alive own) own (batch.subset mem)
  · intro x y k aliveX aliveY ownX ownY
    exact E.sole x y k (before x k aliveX ownX) (before y k aliveY ownY) ownX ownY

lemma add (own : task cfg x = some k) (unique : u.store.UniqueKeys)
    (batch : (u.batch.map (·.key)).Sublist (tr.batch.map (·.key))) (out : k ∉ u.batch.map (·.key))
    (live : ∀ y, u.broker.Live y → isTask cfg y = true → tr.broker.Live y ∨ y = x)
    (alone : ∀ y, tr.broker.Live y → task cfg y ≠ some k) (here : u.store.Taken k)
    (taken : ∀ j, tr.store.Taken j → u.store.Taken j) : Exclusive u := by
  have before : ∀ y j, u.broker.Live y → task cfg y = some j → tr.broker.Live y ∨ y = x :=
    fun y j alive owned => live y alive (by simp [isTask, owned])
  have other : ∀ y j, u.broker.Live y → task cfg y = some j → j ≠ k → tr.broker.Live y := by
    intro y j alive owned differs
    refine (before y j alive owned).resolve_right fun same => differs ?_
    rw [same, own] at owned
    exact (Option.some.inj owned).symm
  have new : ∀ y, u.broker.Live y → task cfg y = some k → y = x := fun y alive owned =>
    (before y k alive owned).resolve_left fun old => alone y old owned
  refine ⟨unique, E.batch.sublist batch, fun j engaged => ?_, fun y j alive owned mem => ?_, ?_⟩
  · by_cases same : j = k
    · exact same ▸ here
    · refine taken j (E.taken j ?_)
      rcases engaged with mem | ⟨y, -, alive, owned⟩
      · exact .inl (batch.subset mem)
      · have old := other y j alive owned same
        exact .inr ⟨y, old.1, old, owned⟩
  · by_cases same : j = k
    · exact out (same ▸ mem)
    · exact E.apart y j (other y j alive owned same) owned (batch.subset mem)
  · intro y z j aliveY aliveZ ownedY ownedZ
    by_cases same : j = k
    · subst same
      rw [new y aliveY ownedY, new z aliveZ ownedZ]
    · exact E.sole y z j (other y j aliveY ownedY same) (other z j aliveZ ownedZ same) ownedY ownedZ

lemma turn (lasting : Lasting (isTask cfg) tr.broker act)
    (makes : ∀ x, isTask cfg x = true → act ≠ .addSession x ∧ ∀ a, act ≠ .register a x)
    (h : tr.turn act os = some u) : Exclusive u := by
  obtain ⟨t, -, stepped, delivered⟩ := turn_cases h
  have writes := deliver_writes delivered
  refine E.frame (writes.store.uniqueKeys E.unique) (by rw [writes.batch])
    (fun x alive kind => ?_) fun k _ taken => writes.store.taken taken
  rw [writes.broker] at alive
  obtain ⟨unadded, unregistered⟩ := makes x kind
  rcases live_of_step stepped lasting kind alive with old | added | ⟨a, registered⟩
  · exact old
  · exact absurd added unadded
  · exact absurd registered (unregistered a)

lemma process (h : tr.process setup x c = some u) : Exclusive u := by
  obtain ⟨row, rest, batch, outcome⟩ := processed h
  have shorter : (rest.map (·.key)).Sublist (tr.batch.map (·.key)) := by
    rw [batch]
    exact (List.sublist_cons_self row rest).map _
  have engaged : tr.Engaged row.key := .inl (by simp [batch])
  cases outcome with
  | shardFailed _ made =>
    have grown := (createShards_spec made).1
    exact E.frame (grown.unique E.unique) (List.nil_sublist _) (fun _ alive _ => alive)
      fun k _ => grown.taken
  | sharded _ made written =>
    have grown := (createShards_spec made).1
    have settled := settles_write written
    exact E.frame (settled.uniqueKeys (grown.unique E.unique)) shorter (fun _ alive _ => alive)
      fun k _ taken => settled.taken (grown.taken taken)
  | unknownPool | nameInUse =>
    exact E.frame E.unique shorter (fun _ alive _ => alive) fun k _ taken => taken
  | @launched t _ _ fits taken | @cancelled t _ _ fits taken =>
    have stepped := (step_cases taken).2
    have live : ∀ y, t.Live y → isTask cfg y = true → tr.broker.Live y ∨ y = x := by
      intro y alive kind
      rcases live_of_step (P := isTask cfg) stepped trivial kind alive with old | added | ⟨a, made⟩
      · exact .inl old
      · cases added
        exact .inr rfl
      · cases made
    have out : row.key ∉ rest.map (·.key) := by
      have nodup := E.batch
      rw [batch, List.map_cons, List.nodup_cons] at nodup
      exact nodup.1
    have alone : ∀ y, tr.broker.Live y → task cfg y ≠ some row.key := fun y alive owned =>
      E.apart y row.key alive owned (by simp [batch])
    exact E.add fits.1 E.unique shorter out live alone (E.taken _ engaged) fun _ => id

lemma goroutine {ctxDone : Bool} (h : tr.goroutine i ctxDone o = some u) : Exclusive u := by
  cases ran h with
  | returned => exact E.frame E.unique (.refl _) (fun _ alive _ => alive) fun _ _ taken => taken
  | reported _ _ _ written =>
    have settled := settles_write written
    exact E.frame (settled.uniqueKeys E.unique) (.refl _) (fun _ alive _ => alive)
      fun _ _ => settled.taken
  | scheduled _ taken =>
    have stepped := (step_cases taken).2
    refine E.frame E.unique (.refl _) (fun x alive kind => ?_) fun _ _ taken => taken
    rcases live_of_step (P := isTask cfg) stepped trivial kind alive with old | added | ⟨a, made⟩
    · exact old
    · cases added
    · cases made

lemma reconnectTask (h : tr.reconnectTask setup x o = some u) : Exclusive u := by
  have taken : ∀ {k : TaskKey} {s : Store},
      TaskStore.reconnectTask tr.store k setup.identity = some s →
      Exclusive ({ tr with store := s } : TaskTracker cfg) := by
    intro k s leased
    obtain ⟨keys, queued, -⟩ := reconnectTask_cases leased
    have unique : s.UniqueKeys := by
      rw [Store.UniqueKeys, keys]
      exact E.unique
    refine E.frame unique (.refl _) (fun _ alive _ => alive) fun j _ taken => ⟨?_, ?_⟩
    · rw [Store.Has, keys]
      exact taken.1
    · exact fun back => taken.2 (queued j back)
  cases reconnected h with
  | plain | refused => exact E
  | leased _ leased =>
    have E := taken leased
    exact E.frame E.unique (.refl _) (fun _ alive _ => alive) fun _ _ taken => taken
  | killed _ leased _ killed =>
    refine (taken leased).turn ?_ (fun x _ => by simp) killed
    trivial

lemma register (sole : Exclusively tr (.register a x {}))
    (h : tr.turn (.register a x) [] = some u) : Exclusive u := by
  cases own : task cfg x with
  | none =>
    refine E.turn ?_ (fun y kind => ⟨by simp, fun b same => ?_⟩) h
    · trivial
    · cases same
      simp [isTask, own] at kind
  | some k =>
    obtain ⟨t, -, stepped, delivered⟩ := turn_cases h
    have writes := deliver_writes delivered
    obtain ⟨taken, free⟩ := sole k own
    refine E.add own (writes.store.uniqueKeys E.unique) (by rw [writes.batch])
      ?_ ?_ ?_ (writes.store.taken taken) fun _ => writes.store.taken
    · rw [writes.batch]
      exact fun mem => free (.inl mem)
    · intro y alive kind
      rw [writes.broker] at alive
      rcases live_of_step (P := isTask cfg) stepped trivial kind alive with old | added | ⟨b, made⟩
      · exact .inl old
      · cases added
      · cases made
        exact .inr rfl
    · exact fun y alive owned => free (.inr ⟨y, alive.1, alive, owned⟩)

lemma step (sole : Exclusively tr act) (h : step setup tr act = some u) : Exclusive u := by
  cases act with
  | broker act os =>
    simp only [Tracker.step] at h
    split at h
    · next own =>
      refine E.turn sole (fun x kind => ⟨?_, ?_⟩) h
      · rintro rfl
        have none : task cfg x = none := by simpa [ownTurn] using own
        simp [isTask, none] at kind
      · rintro a rfl
        cases own
    · cases h
  | create r now =>
    obtain ⟨⟨s, key, count⟩, created, rfl⟩ := Option.map_eq_some_iff.mp h
    have grown := createTask_grown created
    exact E.frame (grown.unique E.unique) (.refl _) (fun _ alive _ => alive) fun _ _ => grown.taken
  | poll =>
    simp only [Tracker.step, poll] at h
    split at h
    · cases h
      obtain ⟨nodup, queued⟩ := pollTasksOnce_batch setup.identity E.unique
      refine ⟨?_, nodup, fun k engaged => ?_, fun x k alive own mem => ?_, E.sole⟩
      · rw [Store.UniqueKeys, pollTasksOnce_keys]
        exact E.unique
      · rcases engaged with mem | ⟨x, known, alive, own⟩
        · exact (queued k mem).2
        · exact pollTasksOnce_taken (E.taken k (.inr ⟨x, known, alive, own⟩))
      · exact (E.taken k (.inr ⟨x, alive.1, alive, own⟩)).2 (queued k mem).1
    · cases h
  | process x c => exact E.process h
  | goroutine i ctxDone o => exact E.goroutine h
  | register a x o =>
    obtain ⟨v, registered, reconnected⟩ := Option.bind_eq_some_iff.mp h
    exact (E.register sole registered).reconnectTask reconnected
  | cancelRows jobId now =>
    cases h
    have settled := Settles.cancelJob (s := tr.store) jobId now
    exact E.frame (settled.uniqueKeys E.unique) (.refl _) (fun _ alive _ => alive)
      fun _ _ => settled.taken
  | cancelJob jobId =>
    cases h
    unfold TaskTracker.cancelJob
    dsimp only
    split <;> exact E.frame E.unique (.refl _) (fun _ alive _ => alive) fun _ _ taken => taken
  | renewLeaser identity now | addPool name =>
    cases h
    exact E.frame E.unique (.refl _) (fun _ alive _ => alive) fun _ _ taken => taken
  | releaseExpiredLeaser lastLeaseTime =>
    cases h
    refine E.frame ?_ (.refl _) (fun _ alive _ => alive) fun k engaged taken => ?_
    · simp only [releaseExpiredLeaser]
      rw [Store.UniqueKeys, releaseLeases_keys]
      exact E.unique
    · exact releaseLeases_taken taken fun t ht released atKey =>
        sole t ht released (atKey ▸ engaged)
  | elsewhere op =>
    simp only [Tracker.step] at h
    split at h
    · next other =>
      obtain ⟨s, stepped, rfl⟩ := Option.map_eq_some_iff.mp h
      rcases op with (⟨r, now⟩ | leaser | ⟨k, result, clock⟩) | ⟨jobId, now⟩ | expired | ⟨k, leaser⟩
      · cases other
      · cases stepped
        refine E.frame ?_ (.refl _) (fun _ alive _ => alive) fun _ _ => pollTasksOnce_taken
        rw [Store.UniqueKeys, pollTasksOnce_keys]
        exact E.unique
      · have settled := Settles.updateTaskFinalResult stepped
        exact E.frame (settled.uniqueKeys E.unique) (.refl _) (fun _ alive _ => alive)
          fun _ _ => settled.taken
      · cases other
      · cases other
      · obtain ⟨keys, queued, -⟩ := reconnectTask_cases stepped
        refine E.frame ?_ (.refl _) (fun _ alive _ => alive) fun j _ taken => ⟨?_, ?_⟩
        · rw [Store.UniqueKeys, keys]
          exact E.unique
        · rw [Store.Has, keys]
          exact taken.1
        · exact fun back => taken.2 (queued j back)
    · cases h

end

end Exclusive

lemma exclusive_of_reachable (h : Reachable (step setup) Exclusively init tr) : Exclusive tr :=
  h.invariant .init fun _ _ _ E sole taken => E.step sole taken

/-- No two sessions of one task that have not ended were both given to an agent. -/
theorem single_execution {x y : SessionPtr} {k : TaskKey}
    (h : Reachable (step setup) Exclusively init tr) (first : tr.Executes x k)
    (second : tr.Executes y k) : x = y :=
  (exclusive_of_reachable h).sole x y k first.1 second.1 first.2.1 second.2.1

/-- Every session is for the task `p`, and runs in one pool. -/
def taskPool : Config where
  agent a := ⟨toString a, "pool", 1⟩
  request x := { key := ⟨0, toString x⟩, pool := "pool", scheduler := "pool", taskId := "p" }
  desired _ := 0

def oneSession : Config :=
  { taskPool with request := fun x => { taskPool.request x with key := ⟨0, "s"⟩ } }

def broker : Setup where
  identity := "broker"
  allowCreateNewPool := false
  marshal _ := []
  unmarshal _ := ⟨0, 0, false, ""⟩
  cleanupAfterCancel := 600
  cleanupMinimumInterval := 60

def turns (acts : List Broker.Action) : List Action := acts.map (.broker · [])

def arrives : List Action :=
  [.addPool "pool", .create { taskId := ⟨[], "p"⟩, dependencies := [], pool := "pool" } 1]

def runsOn (x : SessionPtr) (a : AgentPtr) : List Action :=
  [.poll, .process x {}, .goroutine 0 false {}] ++
    turns ([.loop x 0 (.quota true), .scheduler "pool" .addSession a] ++ accepts x a)

def loses (x : SessionPtr) (a : AgentPtr) : List Broker.Action :=
  [.agent a .done, .loop x 0 .staleTimer, .loop x 0 .expire]

theorem single_execution_moved :
    ∃ tr : TaskTracker taskPool, Reachable (step broker) Exclusively init tr ∧
      .sendSession 1 0 ∈ tr.broker.events ∧ tr.Executes 0 ⟨[], "p"⟩ ∧
        ∀ y, tr.Executes y ⟨[], "p"⟩ → 0 = y := by
  obtain ⟨tr, reached, sent, executes⟩ := exists_of_run (step broker) Exclusively
    (init : TaskTracker taskPool)
    (List.flatten [arrives, turns (joins 0), runsOn 0 0, turns (List.flatten [starts taskPool 0 0,
      loses 0 0, joins 1, [.loop 0 0 (.quota true), .scheduler "pool" .addSession 1],
      accepts 0 1])])
    (fun tr => .sendSession 1 0 ∈ tr.broker.events ∧ tr.Executes 0 ⟨[], "p"⟩) (by decide +kernel)
  exact ⟨tr, reached, sent, executes, fun y => single_execution reached executes⟩

/-- Two sessions of the task `p` that have not ended were both given to agents. -/
def Twice (tr : TaskTracker cfg) : Prop :=
  ∃ x ∈ tr.broker.created, ∃ y ∈ tr.broker.created, x ≠ y ∧ tr.Executes x ⟨[], "p"⟩ ∧
    tr.Executes y ⟨[], "p"⟩

instance (tr : TaskTracker cfg) : Decidable (Twice tr) :=
  inferInstanceAs (Decidable (∃ x ∈ tr.broker.created, ∃ y ∈ tr.broker.created, _))

/-- The lease of another broker expires before its agent comes here: the row is queueing, the
error of `ReconnectTask` is ignored, and the task is handed out again. Or an agent comes back
on a new connection while its session is stale, and the timer sends that session to another. -/
theorem execution_duplicated :
    (∃ tr : TaskTracker taskPool, Reachable (step broker) (Unblocked broker) init tr ∧ Twice tr) ∧
    ∃ tr : TaskTracker oneSession, Reachable (step broker) (Unblocked broker) init tr ∧
      Twice tr := by
  constructor
  · exact exists_of_run _ _ _
      (List.flatten [arrives, [.renewLeaser "other" 1, .elsewhere (.store (.poll "other")),
        .releaseExpiredLeaser 2], turns [.connect 0], [.register 0 0 {}],
        turns (List.flatten [[.startAgent 0], joins 1]), runsOn 1 1]) _ (by decide +kernel)
  · exact exists_of_run _ _ _
      (List.flatten [arrives, turns (joins 0), runsOn 0 0,
        turns (List.flatten [starts oneSession 0 0, [.agent 0 .done, .connect 1]]),
        [.register 1 1 {}], turns (List.flatten [[.startAgent 1, .loop 0 0 .staleTimer,
        .loop 0 0 .expire], joins 2, [.loop 0 0 (.quota true), .scheduler "pool" .addSession 2],
        accepts 0 2])]) _ (by decide +kernel)

end Velda.Tracker
