import Velda.Broker.Lifetime
import Velda.TaskStore.Leases
import Velda.Tracker.System

/-! What the steps of a tracker do, one relation for each function with several ends. -/
variable {x : SessionPtr} {os : List Answer} {e : Event} {evs : List Event} {i : Nat}

namespace Velda.Tracker
open Lib Broker TaskStore List Option TaskTracker

variable {cfg : Config} {tr u : TaskTracker cfg} {setup : Setup}

section Write
variable {s s' : Store} {k : TaskKey} {r : FinalResult} {o : Answer}

lemma settles_write (h : write s k r o = some s') : Settles s s' := by
  unfold write at h
  split at h
  · cases h
    exact .refl s
  · exact .updateTaskFinalResult h

lemma unleased_of_write (unique : s.UniqueKeys) (works : o.fails = false)
    (h : write s k r o = some s') : s'.Unleased k := by
  unfold write at h
  split at h
  · next skipped =>
    cases h
    have missing : s.find k = none := by simpa [works] using skipped
    intro t ht atKey
    rw [← atKey, find_of_mem unique ht] at missing
    cases missing
  · exact unleased_of_report unique h

end Write

structure Writes (tr u : TaskTracker cfg) : Prop where
  store : Settles tr.store u.store
  broker : u.broker = tr.broker
  batch : u.batch = tr.batch
  home : u.home = tr.home
  goroutines : u.goroutines = tr.goroutines
  cancelled : u.cancelled = tr.cancelled

namespace Writes

lemma refl (tr : TaskTracker cfg) : Writes tr tr := ⟨.refl _, rfl, rfl, rfl, rfl, rfl⟩

lemma trans (h : Writes tr u) (h' : Writes u v) : Writes tr v  where
  store := h.store.trans h'.store
  broker := h'.broker.trans h.broker
  batch := h'.batch.trans h.batch
  home := h'.home.trans h.home
  goroutines := h'.goroutines.trans h.goroutines
  cancelled := h'.cancelled.trans h.cancelled

end Writes

namespace TaskTracker

inductive Completed (tr : TaskTracker cfg) (x : SessionPtr) (o : Answer) : TaskTracker cfg → Prop
  | unregistered : tr.home x = none ∨ task cfg x = none → Completed tr x o tr
  | ended {m : Nat} {k : TaskKey} : tr.home x = some m → task cfg x = some k →
      tr.isCancelled k.jobId = false → Completed tr x o (tr.unregister m k)
  | cancelled {m : Nat} {k : TaskKey} {s : Store} : tr.home x = some m → task cfg x = some k →
      tr.isCancelled k.jobId = true → write tr.store k cancelledResult o = some s →
      Completed tr x o { tr.unregister m k with store := s }

variable {o : Answer}

lemma completed (h : tr.completion x o = some u) : tr.Completed x o u := by
  unfold completion at h
  split at h
  · next m k home own =>
    split at h
    · next cancelled =>
      obtain ⟨s, written, rfl⟩ := map_eq_some_iff.mp h
      exact .cancelled home own cancelled written
    · next going =>
      cases h
      exact .ended home own (by simpa using going)
  · next missing =>
    cases h
    refine .unregistered ?_
    by_contra both
    obtain ⟨home, own⟩ := not_or.mp both
    obtain ⟨m, home⟩ := ne_none_iff_exists'.mp home
    obtain ⟨k, own⟩ := ne_none_iff_exists'.mp own
    exact missing m k home own

inductive Noted (tr : TaskTracker cfg) (o : Answer) : Event → TaskTracker cfg → Prop
  | nothing {e : Event} : (∀ x, e.closes x = false) →
      (∀ x k, e = .updateTaskResult x → task cfg x ≠ some k) → Noted tr o e tr
  | result {x : SessionPtr} {k : TaskKey} {r : FinalResult} {s : Store} : task cfg x = some k →
      write tr.store k r o = some s → Noted tr o (.updateTaskResult x) { tr with store := s }
  | closed {e : Event} {x : SessionPtr} {v : TaskTracker cfg} : e.closes x = true →
      tr.Completed x o v → Noted tr o e v

lemma noted (h : tr.told o e = some u) : tr.Noted o e u := by
  cases e with
  | updateTaskResult x =>
    simp only [told] at h
    split at h
    · next k own =>
      obtain ⟨s, written, rfl⟩ := map_eq_some_iff.mp h
      exact .result own written
    · next none =>
      cases h
      refine .nothing (fun _ => rfl) fun y k same => ?_
      cases same
      simp [none]
  | recordExecution x final =>
    simp only [told] at h
    split at h
    · next checkpointed =>
      cases h
      exact .nothing (fun _ => by simp [Event.closes, checkpointed]) (by simp)
    · next past => exact .closed (by simp [Event.closes, past]) (completed h)
  | _ =>
    cases h
    exact .nothing (fun _ => rfl) (by simp)

lemma Completed.writes (h : tr.Completed x o u) : Writes tr u := by
  cases h with
  | unregistered => exact .refl tr
  | ended => exact ⟨.refl _, rfl, rfl, rfl, rfl, rfl⟩
  | cancelled _ _ _ written => exact ⟨settles_write written, rfl, rfl, rfl, rfl, rfl⟩

lemma Noted.writes (h : tr.Noted o e u) : Writes tr u := by
  cases h with
  | nothing => exact .refl tr
  | result _ written => exact ⟨settles_write written, rfl, rfl, rfl, rfl, rfl⟩
  | closed _ completed => exact completed.writes

/-- The rule for what a list of events makes of a tracker; the property may speak of the events
that are left. -/
lemma deliver_rule {I : List Event → TaskTracker cfg → Prop} (start : I evs tr)
    (noted : ∀ v w e rest o, I (e :: rest) v → e ∈ evs → o ∈ os ∨ o = {} → Writes tr v →
      v.Noted o e w → I rest w) (h : deliver evs os tr = some u) : I [] u ∧ Writes tr u := by
  have rule : ∀ (evs' : List Event) (os' : List Answer) (v : TaskTracker cfg),
      (∀ e ∈ evs', e ∈ evs) → (∀ o ∈ os', o ∈ os) → I evs' v → Writes tr v →
      deliver evs' os' v = some u → I [] u ∧ Writes tr u := by
    intro evs'
    induction evs' with
    | nil =>
      intro _ v _ _ holds writes taken
      cases taken
      exact ⟨holds, writes⟩
    | cons e rest ih =>
      intro os' v known answers holds writes taken
      obtain ⟨w, told, later⟩ := bind_eq_some_iff.mp taken
      have head := TaskTracker.noted told
      have answer : os'.headD {} ∈ os ∨ os'.headD {} = {} := by
        cases os' with
        | nil => exact .inr rfl
        | cons o _ => exact .inl (answers o mem_cons_self)
      exact ih os'.tail w (fun e mem => known e (mem_cons_of_mem _ mem))
        (fun o mem => answers o (mem_of_mem_tail mem))
        (noted v w e rest _ holds (known e mem_cons_self) answer writes head)
        (writes.trans head.writes) later
  exact rule evs os tr (fun _ => id) (fun _ => id) start (.refl tr) h

lemma deliver_writes (h : deliver evs os tr = some u) : Writes tr u :=
  (deliver_rule (I := fun _ _ => True) trivial (fun _ _ _ _ _ _ _ _ _ _ => trivial) h).2

lemma unleased_of_deliver (mem : e ∈ evs)
    (marks : ∀ v w o, o ∈ os ∨ o = {} → Writes tr v → v.Noted o e w → w.store.Unleased k)
    (h : deliver evs os tr = some u) : u.store.Unleased k := by
  have done := (deliver_rule (I := fun rest v => v.store.Unleased k ∨ e ∈ rest) (.inr mem)
    (fun v w d rest o holds _ answer writes noted => ?_) h).1
  · exact done.resolve_right not_mem_nil
  · rcases holds with marked | left
    · exact .inl (marked.settles noted.writes.store)
    · rcases mem_cons.mp left with rfl | later
      · exact .inl (marks v w o answer writes noted)
      · exact .inr later

lemma turn_cases (h : tr.turn act os = some u) :
    ∃ t, Broker.step tr.broker act = some t ∧ Step tr.broker act t ∧
      deliver (tr.broker.news t) os { tr with broker := t } = some u := by
  obtain ⟨t, taken, delivered⟩ := bind_eq_some_iff.mp h
  exact ⟨t, taken, (step_cases taken).2, delivered⟩

lemma turn_eq (taken : Broker.step tr.broker act = some t) (plain : (∃ x, act = .addSession x) ∨ (∃
      x ctx, act = .schedule x ctx) ∨ ∃ a x, act = .register a x) :
    tr.turn act [] = some { tr with broker := t } ∧
      ∀ e ∈ tr.broker.news t, ∀ x, e.closes x = false := by
  have stepped := (step_cases taken).2
  have quiet : ∀ {evs : List Event}, tr.broker.news t = evs →
      (evs = [] ∨ ∃ a x, evs = [.reGrantAccess a x]) →
      tr.turn act [] = some { tr with broker := t } ∧
        ∀ e ∈ tr.broker.news t, ∀ x, e.closes x = false := by
    rintro evs same (rfl | ⟨a, x, rfl⟩)
    · exact ⟨by simp [turn, taken, same, deliver], by simp [same]⟩
    · exact ⟨by simp [turn, taken, same, deliver, told], by simp [same, Event.closes]⟩
  rcases plain with ⟨x, rfl⟩ | ⟨x, ctx, rfl⟩ | ⟨a, x, rfl⟩
  · cases stepped
    exact quiet (State.news_eq (l := []) rfl) (.inl rfl)
  · cases stepped
    exact quiet (State.news_turned ..) (.inl rfl)
  · cases stepped
    exact quiet (State.news_eq (l := [.reGrantAccess a x]) rfl) (.inr ⟨a, x, rfl⟩)

end TaskTracker

/-- What creating one shard does, creating some of them does. -/
lemma createShards_rule {R : Store → Store → Prop} {pool : String} (refl : ∀ s, R s s)
    (trans : ∀ {s t u}, R s t → R t u → R s u)
    (made : ∀ {s t key n} i now,
      createTask s (shardRequest setup row w pool i) now = some (t, key, n) → R s t)
    (h : createShards setup row w pool c m i s = (s', done)) :
    R s s' ∧ (done = false → c.failedShard ≠ none) := by
  induction m generalizing i s with
  | zero =>
    cases h
    exact ⟨refl _, by simp⟩
  | succ m ih =>
    simp only [createShards] at h
    split at h
    · next failed =>
      cases h
      exact ⟨refl _, fun _ => by simp [failed]⟩
    · split at h
      · next refused =>
        have some := createTask_isSome s (shardRequest setup row w pool i) (c.answer.clock i)
        rw [refused] at some
        cases some
      · next created =>
        obtain ⟨rest, failed⟩ := ih h
        exact ⟨trans (made i _ created) rest, failed⟩

lemma createShards_spec {pool : String}
    (h : createShards setup row w pool c m i s = (s', done)) :
    Grown s s' ∧ (done = false → c.failedShard ≠ none) :=
  createShards_rule .refl .trans (fun _ _ => createTask_grown) h

namespace TaskTracker

lemma launch_cases (tr : TaskTracker cfg) (k : TaskKey) (x : SessionPtr) (c : Callback) :
    (tr.isCancelled k.jobId = false ∧ ∃ gangs, tr.launch k x c =
      { ({ tr with gangs := gangs } : TaskTracker cfg).registered k x with
        goroutines := tr.goroutines ++ [⟨x, .server, true, none⟩] }) ∨
    (tr.isCancelled k.jobId = true ∧ ∃ gangs, tr.launch k x c = { tr with
      gangs := gangs
      broker := { tr.broker with cancelledCtx := c.ctx :: tr.broker.cancelledCtx }
      goroutines := tr.goroutines ++ [⟨x, .caller c.ctx, false, none⟩] }) := by
  unfold launch registerSession
  dsimp only
  by_cases cancelled : tr.isCancelled k.jobId = true
  · have same : ({ tr with gangs := tr.withGang k x } : TaskTracker cfg).isCancelled k.jobId = true :=
      cancelled
    rw [if_pos same]
    exact .inr ⟨cancelled, _, rfl⟩
  · have same : ¬ ({ tr with gangs := tr.withGang k x } : TaskTracker cfg).isCancelled k.jobId = true :=
      cancelled
    rw [if_neg same]
    exact .inl ⟨by simpa using cancelled, _, rfl⟩

inductive Processed (tr : TaskTracker cfg) (setup : Setup) (x : SessionPtr) (c : Callback)
    (row : Task) (rest : List Task) : TaskTracker cfg → Prop
  | shardFailed {s : Store} {w : Workload} {pool : String} {pools : List String} {count : Nat} :
      (setup.unmarshal row.payload).toShard = true →
      createShards setup row w pool c count 0 tr.store = (s, false) →
      Processed tr setup x c row rest
        { tr with store := s, pools := pools, batch := [], polling := c.periodic }
  | sharded {s s' : Store} {w : Workload} {pool : String} {pools : List String} {count : Nat}
      {r : FinalResult} : (setup.unmarshal row.payload).toShard = true →
      createShards setup row w pool c count 0 tr.store = (s, true) →
      write s row.key r c.answer = some s' →
      Processed tr setup x c row rest { tr with store := s', pools := pools, batch := rest }
  | unknownPool : (setup.unmarshal row.payload).toShard = false →
      tr.getPool setup row.pool = false →
      Processed tr setup x c row rest { tr with batch := rest }
  | nameInUse : (setup.unmarshal row.payload).toShard = false →
      tr.inUse row.instanceId (setup.unmarshal row.payload).serviceName = true →
      Processed tr setup x c row rest
        { tr with pools := tr.pools.insert row.pool, batch := rest }
  | launched {t : State cfg} {gangs : List (List Name × GangPtr)} :
      (setup.unmarshal row.payload).toShard = false → tr.Requests row (setup.unmarshal row.payload) x →
      Broker.step tr.broker (.addSession x) = some t → tr.isCancelled row.key.jobId = false →
      Processed tr setup x c row rest
        { ({ tr with
            broker := t, pools := tr.pools.insert row.pool, batch := rest
            gangs := gangs } : TaskTracker cfg).registered row.key x with
          goroutines := tr.goroutines ++ [⟨x, .server, true, none⟩] }
  | cancelled {t : State cfg} {gangs : List (List Name × GangPtr)} :
      (setup.unmarshal row.payload).toShard = false → tr.Requests row (setup.unmarshal row.payload) x →
      Broker.step tr.broker (.addSession x) = some t → tr.isCancelled row.key.jobId = true →
      Processed tr setup x c row rest
        { tr with
          broker := { t with cancelledCtx := c.ctx :: t.cancelledCtx }
          pools := tr.pools.insert row.pool, batch := rest, gangs := gangs
          goroutines := tr.goroutines ++ [⟨x, .caller c.ctx, false, none⟩] }

lemma processed (h : tr.process setup x c = some u) :
    ∃ row rest, tr.batch = row :: rest ∧ tr.Processed setup x c row rest u := by
  unfold process at h
  split at h
  · cases h
  · next row rest batch =>
    refine ⟨row, rest, batch, ?_⟩
    dsimp only at h
    split at h
    · next divides =>
      unfold shards at h
      dsimp only at h
      split at h
      · next made =>
        cases h
        exact .shardFailed divides made
      · next made =>
        obtain ⟨s', written, rfl⟩ := map_eq_some_iff.mp h
        exact .sharded divides made written
    · next whole =>
      have whole : (setup.unmarshal row.payload).toShard = false := by simpa using whole
      split at h
      · next unknown =>
        cases h
        exact .unknownPool whole unknown
      · split at h
        · next used =>
          cases h
          exact .nameInUse whole used
        · split at h
          · next fits =>
            obtain ⟨t, stepped, rfl⟩ := map_eq_some_iff.mp h
            rcases launch_cases (_ : TaskTracker cfg) row.key x c with
              ⟨going, gangs, same⟩ | ⟨gone, gangs, same⟩
            · rw [same]
              exact .launched whole fits stepped going
            · rw [same]
              exact .cancelled whole fits stepped gone
          · cases h

inductive Ran (tr : TaskTracker cfg) (i : Nat) (ctxDone : Bool) (o : Answer) :
    TaskTracker cfg → Prop
  | returned {g : Goroutine} : tr.goroutines[i]? = some g →
      (g.reports = true → task cfg g.session ≠ none →
        (tr.broker.sessions g.session).schedulingErr = none) →
      Ran tr i ctxDone o { tr with goroutines := tr.goroutines.eraseIdx i }
  | reported {g : Goroutine} {k : TaskKey} {s : Store} : tr.goroutines[i]? = some g →
      task cfg g.session = some k →
      ¬ (ctxDone = false ∧ (tr.broker.sessions g.session).schedulingErr = none) →
      write tr.store k cancelledResult o = some s →
      Ran tr i ctxDone o { tr with goroutines := tr.goroutines.eraseIdx i, store := s }
  | scheduled {g : Goroutine} {t : State cfg} : tr.goroutines[i]? = some g →
      Broker.step tr.broker (.schedule g.session g.ctx) = some t →
      Ran tr i ctxDone o { tr with
        broker := t
        goroutines := tr.goroutines.set i
          { g with generation := some (t.sessions g.session).generation } }

variable {ctxDone : Bool} {o : Answer}

lemma ran_of_finish (found : tr.goroutines[i]? = some g)
    (kept : failed = false → (tr.broker.sessions g.session).schedulingErr = none) (fails : failed =
      true → ¬ (ctxDone = false ∧ (tr.broker.sessions g.session).schedulingErr = none))
    (h : tr.finish i g failed o = some u) : tr.Ran i ctxDone o u := by
  unfold finish at h
  split at h
  · next k own =>
    split at h
    · next reports =>
      obtain ⟨s, written, rfl⟩ := map_eq_some_iff.mp h
      exact .reported found own (fails reports.2) written
    · next silent =>
      cases h
      refine .returned found fun reports _ => kept ?_
      simpa [reports] using silent
  · next none =>
    cases h
    exact .returned found fun _ some => absurd none some

lemma ran (h : tr.goroutine i ctxDone o = some u) : tr.Ran i ctxDone o u := by
  unfold goroutine at h
  split at h
  · cases h
  · next g found =>
    split at h
    · next done =>
      split at h
      · exact ran_of_finish found (by simp) (by simp [done]) h
      · cases h
    · split at h
      · cases h
      · split at h
        · exact ran_of_finish found (by simp) (by simp +contextual [isSome_iff_ne_none]) h
        · obtain ⟨t, stepped, rfl⟩ := map_eq_some_iff.mp h
          exact .scheduled found stepped

/-- The outcomes of the report of an execution: the session is there in any case. -/
inductive Reconnected (tr : TaskTracker cfg) (setup : Setup) (x : SessionPtr) :
    TaskTracker cfg → Prop
  | plain : task cfg x = none → Reconnected tr setup x tr
  | refused {k : TaskKey} : task cfg x = some k → Reconnected tr setup x tr
  | leased {k : TaskKey} {s : Store} : task cfg x = some k →
      TaskStore.reconnectTask tr.store k setup.identity = some s → tr.isCancelled k.jobId = false →
      Reconnected tr setup x (registered { tr with store := s } k x)
  | killed {k : TaskKey} {s : Store} {v : TaskTracker cfg} : task cfg x = some k →
      TaskStore.reconnectTask tr.store k setup.identity = some s → tr.isCancelled k.jobId = true →
      ({ tr with store := s } : TaskTracker cfg).turn (.kill x true) [] = some v →
      Reconnected tr setup x v

lemma reconnected (h : tr.reconnectTask setup x o = some u) : tr.Reconnected setup x u := by
  unfold reconnectTask at h
  split at h
  · next none =>
    cases h
    exact .plain none
  · next k own =>
    split at h
    · cases h
      exact .refused own
    · next s leased =>
      have leased : TaskStore.reconnectTask tr.store k setup.identity = some s := by
        split at leased
        · cases leased
        · exact leased
      unfold registerSession at h
      by_cases cancelled : tr.isCancelled k.jobId = true
      · have same : ({ tr with store := s } : TaskTracker cfg).isCancelled k.jobId = true :=
          cancelled
        rw [if_pos same] at h
        exact .killed own leased cancelled h
      · have same : ¬ ({ tr with store := s } : TaskTracker cfg).isCancelled k.jobId = true :=
          cancelled
        rw [if_neg same] at h
        cases h
        exact .leased own leased (by simpa using cancelled)

end TaskTracker

def adds : Action → Option SessionPtr
  | .broker (.addSession x) _ | .process x _ | .register _ x _ => some x
  | _ => none

/-- A step of the tracker is made of steps of the broker, which make only that session; the turns
of agents are steps of their own. -/
lemma broker_rule {I : State cfg → Prop} (h : step setup tr act = some u) (each : ∀ s b t, (∀ x, b =
      .addSession x ∨ (∃ a, b = .register a x) → x ∈ adds act) → (∀ a e, b = .agent a e → ∃ os, act
      = .broker b os ∧ s = tr.broker) → I s → Step s b t → I t) (start : I tr.broker) :
    I u.broker := by
  cases act with
  | broker b os =>
    simp only [step] at h
    split at h
    · next own =>
      obtain ⟨t, -, stepped, delivered⟩ := turn_cases h
      rw [(deliver_writes delivered).broker]
      refine each _ b t ?_ (fun _ _ _ => ⟨os, rfl, rfl⟩) start stepped
      rintro x (rfl | ⟨a, rfl⟩)
      · rfl
      · cases own
    · cases h
  | create r now =>
    obtain ⟨_, -, rfl⟩ := map_eq_some_iff.mp h
    exact start
  | poll =>
    simp only [step, poll] at h
    split at h
    · cases h
      exact start
    · cases h
  | process x c =>
    obtain ⟨row, rest, -, processed⟩ := processed h
    have made (t) (stepped : Broker.step tr.broker (.addSession x) = some t) : I t := by
      refine each _ _ t ?_ (by simp) start (step_cases stepped).2
      rintro y (same | ⟨a, same⟩)
      · cases same
        rfl
      · cases same
    cases processed with
    | launched _ _ stepped => exact made _ stepped
    | cancelled _ _ stepped =>
      exact each _ _ _ (by simp) (by simp) (made _ stepped) (.cancelCtx c.ctx)
    | _ => exact start
  | goroutine i ctxDone o =>
    cases ran h with
    | returned | reported => exact start
    | scheduled _ stepped => exact each _ _ _ (by simp) (by simp) start (step_cases stepped).2
  | register a x o =>
    obtain ⟨v, turned, reconnects⟩ := bind_eq_some_iff.mp h
    obtain ⟨t, -, stepped, delivered⟩ := turn_cases turned
    have made : I v.broker := by
      rw [(deliver_writes delivered).broker]
      refine each _ _ t ?_ (by simp) start stepped
      rintro y (same | ⟨b, same⟩)
      · cases same
      · cases same
        rfl
    cases reconnected reconnects with
    | plain | refused | leased => exact made
    | killed _ _ _ killed =>
      obtain ⟨w, -, stepped, delivered⟩ := turn_cases killed
      rw [(deliver_writes delivered).broker]
      exact each _ _ w (by simp) (by simp) made stepped
  | cancelJob jobId =>
    cases h
    unfold TaskTracker.cancelJob
    dsimp only
    split <;> exact start
  | elsewhere op =>
    simp only [step] at h
    split at h
    · obtain ⟨_, -, rfl⟩ := map_eq_some_iff.mp h
      exact start
    · cases h
  | _ =>
    cases h
    exact start

end Velda.Tracker
