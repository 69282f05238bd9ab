import Velda.Broker.Lifetime

/-! Records of executions. `completeLocked` and `Checkpointed` write one each, whatever the
session has become by then. As long as agents report the end of sessions that run or wait for
their gang, there is one record for every end of a session and none besides. -/
namespace Velda.Broker
open Lib List AgentOutput State Session AgentOutput Event ExecutionStatus State

variable {cfg : Config}

def ExecutionStatus.ended : ExecutionStatus → Bool
  | .terminated | .cancelled | .checkpointed => true
  | _ => false

lemma ExecutionStatus.terminal_of_going {status : ExecutionStatus} (h : status.ended = false) :
    status.terminal = false := by
  cases status <;> first | rfl | cases h

def FinalState.status : FinalState → ExecutionStatus
  | .cancelled => .cancelled
  | .checkpointed => .checkpointed
  | _ => .terminated

lemma FinalState.ended_status (final : FinalState) : final.status.ended = true := by
  cases final <;> rfl

def State.records (s : State cfg) (x : SessionPtr) : List FinalState :=
  s.events.filterMap (record x)

/-- An agent reports the end of a session only while that runs or waits for its gang. -/
def Timely (s : State cfg) : Action → Prop
  | .agent a (.update _) => ∀ m ∈ s.net.reqChan a, ∀ k ∈ m.reports,
      ∀ x ∈ (s.agents a).mySessions.lookup k,
        (s.sessions x).status = .running ∨ (s.sessions x).status = .waitingForOtherShards
  | _ => True

instance (s : State cfg) (act : Action) : Decidable (Timely s act) := by
  induction act using Action.casesOn with
  | agent a e => induction e using AgentEvent.casesOn <;> unfold Timely <;> infer_instance
  | _ => unfold Timely; infer_instance

variable {s t : State cfg} {x : SessionPtr} {act : Action} {y : Session}
  {ok : State cfg → Action → Prop}

namespace AgentOutput

lemma onSession_of_unaffected {done : Ctx → Bool} {o : AgentOutput} (h : o.affects x = false) :
    o.onSession cfg done x y = y := by
  cases o <;> simp_all [affects, onSession]

lemma records_of_unaffected {o : AgentOutput} (h : o.affects x = false) :
    o.events.filterMap (record x) = [] := by
  cases o <;> simp_all [affects, events, record]

lemma onSessions_filter (done : Ctx → Bool) (x : SessionPtr) (y : Session)
    (outs : List AgentOutput) :
    onSessions cfg done x y outs = onSessions cfg done x y (outs.filter (affects x)) := by
  induction outs generalizing y with
  | nil => rfl
  | cons o rest ih =>
    cases affected : o.affects x with
    | true =>
      rw [filter_cons_of_pos affected]
      exact ih (o.onSession cfg done x y)
    | false =>
      rw [filter_cons_of_neg (by simp [affected]), ← ih]
      exact congrArg (onSessions cfg done x · rest) (onSession_of_unaffected affected)

lemma records_filter (x : SessionPtr) (outs : List AgentOutput) :
    (outs.flatMap events).filterMap (record x) =
      ((outs.filter (affects x)).flatMap events).filterMap (record x) := by
  induction outs with
  | nil => rfl
  | cons o rest ih =>
    cases affected : o.affects x with
    | true => simp [affected, ih]
    | false => simp [affected, ih, records_of_unaffected affected]

end AgentOutput

lemma State.records_eq (h : t.events = l ++ s.events) (x : SessionPtr) :
    t.records x = l.filterMap (record x) ++ s.records x := by
  rw [records, h, filterMap_append]
  rfl

lemma State.records_of_silent (h : t.events = l ++ s.events) (silent : ∀ e ∈ l, e.record x = none) :
    t.records x = s.records x := by
  rw [records_eq h, filterMap_eq_nil_iff.mpr silent, nil_append]

/-- What a step makes of a session `y` and of the records of its executions. -/
inductive Recorded (y z : Session) (old new : List FinalState) : Prop
  | unchanged : z = y → new = old → Recorded y z old new
  | going : y.status.ended = false → z.status.ended = false → y.generation ≤ z.generation →
      new = old → Recorded y z old new
  | resumed : y.status = .checkpointed → z.status.ended = false → y.generation < z.generation →
      new = old → Recorded y z old new
  | ended (final : FinalState) : y.status.ended = false → z.status = final.status →
      z.generation = y.generation → z.loops = [] → new = final :: old → Recorded y z old new

/-- The session of the state is sound, and no loop goes on behind its end. -/
structure State.Kept (s : State cfg) (x : SessionPtr) : Prop where
  sound : (s.sessions x).Sound
  loops : (s.sessions x).status.ended = true → (s.sessions x).loops = []
  unmade : x ∉ s.created → s.sessions x = {}

namespace Session

lemma ended_of_idle (h : y.status = .running ∨ y.status = .waitingForOtherShards) :
    y.status.ended = false := by
  rcases h with h | h <;> rw [h] <;> rfl

lemma recorded_markStale (y : Session) (r : Request) (done : Ctx → Bool) (time : Time)
    (old : List FinalState) : Recorded y (y.markStale r done time) old old := by
  unfold markStale
  split
  · next running =>
    split
    · exact .going (by rw [running]; rfl) rfl (by simp [start]) rfl
    · exact .unchanged rfl rfl
  · next waiting => exact .going (by rw [waiting]; rfl) rfl (by simp [start]) rfl
  · exact .unchanged rfl rfl

lemma recorded_schedule (y : Session) (ctx : Ctx) (old : List FinalState) :
    Recorded y (y.schedule ctx) old old := by
  refine schedule_rule (I := (Recorded y · old old)) (.unchanged rfl rfl) (fun waits _ => ?_)
    fun starts _ _ => ?_
  · rcases waits with status | status <;>
      exact .going (by rw [status]; rfl) (by rw [status]; rfl) le_rfl rfl
  · rcases starts with checkpointed | fresh
    · exact .resumed checkpointed rfl (by simp [start]) rfl
    · exact .going (by rw [fresh]; rfl) rfl (by simp [start]) rfl

lemma status_finish_eq (y : Session) (kind : final ≠ .checkpointed) :
    (y.finish final).status = final.status := by
  cases final <;> first | rfl | exact absurd rfl kind

end Session

lemma Agent.Affected.recorded {g : Agent cfg} (h : g.Affected m x outs) (sound : y.Sound) (timely :
      ∀ r ∈ m, ∀ k ∈ r.reports, g.mySessions.lookup k = some x → y.status = .running ∨ y.status =
      .waitingForOtherShards) (done : Ctx → Bool) (old : List FinalState) :
    Recorded y (onSessions cfg done x y outs) old
      (((outs.flatMap AgentOutput.events).reverse.filterMap (Event.record x)) ++ old) := by
  cases h with
  | none => exact .unchanged rfl rfl
  | stale l time mem =>
    simpa [AgentOutput.onSessions, AgentOutput.onSession, mem, AgentOutput.events] using
      y.recorded_markStale (cfg.request x) done time old
  | @complete final r k message mem held kind =>
    have idle := timely r message k mem held
    refine .ended final (ended_of_idle idle) ?_ ?_ ?_ ?_
    · simpa [onSessions, onSession] using y.status_finish_eq kind
    · simp [onSessions, onSession, finish]
    · simpa [onSessions, onSession, finish] using
        sound.idle (.inr idle)
    · simp [AgentOutput.events, Event.record]
  | @checkpointed r k message mem held =>
    have idle := timely r message k mem held
    refine .ended .checkpointed (ended_of_idle idle) ?_ ?_ ?_ ?_
    · simp [onSessions, onSession, FinalState.status]
    · simp [onSessions, onSession]
    · simpa [onSessions, onSession] using sound.idle (.inr idle)
    · simp [AgentOutput.events, Event.record]

lemma records_of_quiet (h : Step s act t) (quiet : ∀ e ∈ s.news t, e.record x = none) :
    t.records x = s.records x := by
  obtain ⟨evs, added, -⟩ := concerned_of_step h
  rw [news_eq added] at quiet
  exact records_of_silent added fun e mem => quiet e (mem_reverse.mpr mem)

lemma records_of_loop (h : Step s (.loop z i e) t) (other : x ≠ z) : t.records x = s.records x := by
  refine records_of_quiet h fun e mem => ?_
  cases source h mem with
  | turn turn => cases turn
  | recorded _ own =>
    cases own
    simp [record, Ne.symm other]
  | _ => rfl

lemma LoopStep.recorded (h : LoopStep s x i l e t) (kept : s.Kept x)
    (found : (s.sessions x).loops[i]? = some l) :
    Recorded (s.sessions x) (t.sessions x) (s.records x) (t.records x) := by
  obtain ⟨rfl, loops⟩ := kept.sound.loops_eq found
  have going : (s.sessions x).status.ended = false := by
    by_contra past
    have none := kept.loops (by simpa using past)
    rw [loops] at none
    cases none
  have finished : ∀ {err final n evs}, final ≠ .checkpointed →
      evs.filterMap (record x) = [final] →
      t = s.turned x ((s.sessions x).finishLoop 0 l err final) n true evs →
      Recorded (s.sessions x) (t.sessions x) (s.records x) (t.records x) := by
    rintro err final n evs kind record rfl
    refine .ended final going ?_ ?_ ?_ ?_
    · simpa [turned, finishLoop, endLoop] using
        status_finish_eq _ kind
    · simp [turned, finishLoop, endLoop, finish]
    · simp [turned, finishLoop, endLoop, finish, loops]
    · rw [records_eq rfl, record]
      rfl
  have goes : ∀ {y : Session} {n : Net cfg} {evs : List Event},
      t = s.turned x y n false evs → (∀ e ∈ evs, e.record x = none) →
      y.status.ended = false → y.generation = (s.sessions x).generation →
      Recorded (s.sessions x) (t.sessions x) (s.records x) (t.records x) := by
    rintro y n evs rfl silent live same
    refine .going going ?_ ?_ (records_of_silent rfl silent)
    · simpa [turned] using live
    · simp [turned, same]
  cases h with
  | noCtx | notReconnected => exact .unchanged rfl rfl
  | refused | shutdown | failed | confirmed | cancelShutdown | declined | staleShutdown =>
    exact finished (by simp) (by simp [record]) rfl
  | lost =>
    refine finished (by simp) ?_ rfl
    cases (s.sessions x).agent <;> simp [record, filterMap_cons]
  | hold =>
    refine .going going ?_ ?_ rfl
    · simp [notifyGang, turned, endLoop, ended]
    · simp [notifyGang, turned, endLoop]
  | enqueue =>
    refine goes rfl ?_ going rfl
    cases cfg.batched x <;> simp [record]
  | staleSignal | staleRefresh =>
    refine goes rfl (by simp) ?_ ?_
    · unfold refresh
      split <;> exact going
    · unfold refresh
      split <;> rfl
  | killStarted | reconnectKill => exact goes rfl (by simp [record]) going rfl
  | started | reschedule => exact goes rfl (by simp) rfl rfl
  | _ => exact goes rfl (by simp) going rfl

lemma Turn.timely (turn : Turn s act a r) (timely : Timely s act) (x : SessionPtr) :
    ∀ m ∈ s.message act, ∀ k ∈ m.reports,
      (s.agents a).mySessions.lookup k = some x →
        (s.sessions x).status = .running ∨ (s.sessions x).status = .waitingForOtherShards := by
  intro m read k mem held
  cases turn with
  | @agent _ e =>
    cases e with
    | update revoked => exact timely m read k mem x held
    | _ => cases read
  | _ => cases read

lemma recorded_of_step (h : Step s act t) (kept : s.Kept x) (timely : Timely s act) :
    Recorded (s.sessions x) (t.sessions x) (s.records x) (t.records x) := by
  have performed : ∀ {a r}, Turn s act a r →
      Recorded (s.sessions x) (t.sessions x) (s.records x) (t.records x) := by
    intro a r turn
    obtain ⟨n, rfl⟩ := turn.performed h
    have logged : (({ s with net := n } : State cfg).performAll a r).events =
        (r.2.flatMap AgentOutput.events).reverse ++ s.events := State.events_performAll _ a r
    have records : (r.2.flatMap AgentOutput.events).reverse.filterMap (Event.record x) =
        (((r.2.filter (AgentOutput.affects x)).flatMap AgentOutput.events).reverse.filterMap
          (record x)) := by
      rw [filterMap_reverse, filterMap_reverse, records_filter]
    rw [(sessions_performAll _ a r x).1, records_eq logged, records,
      onSessions_filter]
    exact (turn.affected x).recorded kept.sound (turn.timely timely x) _ _
  have apart : ∀ {z : SessionPtr} {y : Session}, x ≠ z →
      Function.update s.sessions z y x = s.sessions x := fun other => Function.update_of_ne other _ _
  cases h with
  | @addSession y unused =>
    refine .unchanged ?_ rfl
    by_cases same : x = y
    · subst same
      simp [newSession, kept.unmade unused.1]
    · exact apart same
  | @schedule y ctx known =>
    by_cases same : x = y
    · subst same
      have own : (s.turned x ((s.sessions x).schedule ctx) s.net false []).sessions x =
          (s.sessions x).schedule ctx := Function.update_self ..
      rw [own]
      exact (s.sessions x).recorded_schedule ctx (s.records x)
    · exact .unchanged (apart same) rfl
  | @killRunning y =>
    refine .unchanged ?_ (records_of_silent rfl (by simp [record]))
    simp [turned]
  | @killSignal y force known waits =>
    have silent := records_of_silent (x := x)
      (t := s.turned y (s.sessions y).signal s.net false [.killed y (s.sessions y).status])
      rfl (by simp [record])
    by_cases same : x = y
    · subst same
      have going : (s.sessions x).status.ended = false := by
        rcases waits with waits | waits | waits <;> rw [waits] <;> rfl
      refine .going going ?_ ?_ silent
      · simpa [turned, terminal_signal] using going
      · simp only [turned, Function.update_self, signal]
        split <;> rfl
    · exact .unchanged (apart same) silent
  | @register a y _ unused =>
    have silent : (s.registered a y).records x = s.records x :=
      records_of_silent (l := [.reGrantAccess a y]) rfl (by simp [record])
    by_cases same : x = y
    · subst same
      have fresh := kept.unmade unused.1
      refine .going (by simp [fresh, ended]) ?_ ?_ silent
      · simp [registered, ended]
      · simp [fresh]
    · exact .unchanged (apart same) silent
  | startAgent => exact performed (.start rfl)
  | agent _ taken => exact performed (.agent taken)
  | sender granted sent _ queue => exact performed (.sender granted sent queue)
  | @loop z i l _ _ found taken =>
    by_cases same : x = z
    · subst same
      exact taken.recorded kept found
    · exact .unchanged (taken.sessions_of_ne same) (records_of_loop (.loop found taken) same)
  | _ => exact .unchanged rfl rfl

lemma unmade_of_step (h : Step s act t) (kept : s.Kept x) (timely : Timely s act)
    (unmade : x ∉ t.created) : t.sessions x = {} := by
  have unknown : x ∉ s.created := fun known => unmade (created_of_step h known)
  have fresh := kept.unmade unknown
  refine session_of_turn h x (I := (· = {})) fresh (fun a r turn => ?_) (fun _ _ => rfl)
    (fun a own _ => ?_) (fun _ _ known => absurd known unknown)
    (fun _ _ known => absurd known unknown) fun i l e _ found _ => ?_
  · have idle := turn.timely timely x
    rw [fresh] at idle ⊢
    have affected := turn.affected x
    rw [onSessions_filter]
    generalize r.2.filter (affects x) = outs at affected ⊢
    cases affected with
    | none => rfl
    | stale l time mem => simp [onSessions, onSession, Session.markStale]
    | complete message mem held | checkpointed message mem held =>
      cases idle _ message _ mem held with
      | inl running => cases running
      | inr waiting => cases waiting
  · subst own
    cases h
    exact absurd mem_cons_self unmade
  · rw [fresh] at found
    cases found

lemma State.Kept.step (kept : s.Kept x) (h : Step s act t) (timely : Timely s act) :
    t.Kept x := by
  have resumed : Resumed x s act := by
    cases act with
    | schedule y ctx =>
      intro own checkpointed
      exact kept.loops (by rw [checkpointed]; rfl)
    | _ => trivial
  refine ⟨kept.sound.step resumed h, fun past => ?_, unmade_of_step h kept timely⟩
  cases recorded_of_step h kept timely with
  | unchanged same =>
    rw [same] at past ⊢
    exact kept.loops past
  | going _ live | resumed _ live =>
    rw [live] at past
    cases past
  | ended _ _ _ _ loops => exact loops

lemma kept_of_reachable (x : SessionPtr) (timely : ∀ s act, ok s act → Timely s act)
    (h : Reachable step ok .init s) : s.Kept x :=
  Reachable.invariant (I := fun s : State cfg => s.Kept x)
    ⟨.fresh, by simp [init], fun _ => rfl⟩
    (fun _ _ _ kept meets taken => kept.step (step_cases taken).2 (timely _ _ meets)) h

lemma records_between (timely : ∀ s act, ok s act → Timely s act) (kept : s.Kept x)
    (h : Reachable step ok s t) (same : (t.sessions x).generation = (s.sessions x).generation) :
    (t.records x).length ≤ (s.records x).length + 1 := by
  -- a session that has not ended may be recorded once more
  have bound : t.Kept x ∧ (s.sessions x).generation ≤ (t.sessions x).generation ∧
      ((t.sessions x).generation = (s.sessions x).generation →
        (t.records x).length + (if (t.sessions x).status.ended then 0 else 1) ≤
          (s.records x).length + 1) := by
    refine Reachable.invariant (I := fun t : State cfg => t.Kept x ∧
      (s.sessions x).generation ≤ (t.sessions x).generation ∧
        ((t.sessions x).generation = (s.sessions x).generation →
          (t.records x).length + (if (t.sessions x).status.ended then 0 else 1) ≤
            (s.records x).length + 1)) ⟨kept, le_rfl, fun _ => ?_⟩ ?_ h
    · split <;> omega
    · rintro u act v ⟨kept, grown, bound⟩ meets taken
      have taken := (step_cases taken).2
      refine ⟨kept.step taken (timely _ _ meets), ?_⟩
      cases recorded_of_step taken kept (timely _ _ meets) with
      | unchanged session records =>
        rw [session, records]
        exact ⟨grown, bound⟩
      | going before after later records =>
        rw [before] at bound
        rw [after, records]
        exact ⟨grown.trans later, fun same => bound (by omega)⟩
      | resumed before after later records => exact ⟨by omega, fun same => by omega⟩
      | ended final before status generation _ records =>
        rw [before] at bound
        rw [generation, records, length_cons, status, final.ended_status]
        exact ⟨grown, fun same => bound same⟩
  omega

lemma completions_le_one (x : SessionPtr) (timely : ∀ s act, ok s act → Timely s act)
    (h : Reachable step ok .init s) : ((s.records x).filter (· ≠ .checkpointed)).length ≤ 1 := by
  have bound : ((s.records x).filter (· ≠ .checkpointed)).length +
      (if (s.sessions x).status.terminal then 0 else 1) ≤ 1 := by
    refine Reachable.invariant_of (I := fun s : State cfg =>
      ((s.records x).filter (· ≠ .checkpointed)).length +
        (if (s.sessions x).status.terminal then 0 else 1) ≤ 1)
      (fun s => kept_of_reachable x timely) le_rfl ?_ h
    intro s act t kept bound meets taken
    cases recorded_of_step (step_cases taken).2 kept (timely _ _ meets) with
    | unchanged session records => rwa [session, records]
    | going before after _ records =>
      rw [terminal_of_going before] at bound
      rwa [records, terminal_of_going after]
    | resumed before after _ records =>
      rw [before] at bound
      rwa [records, terminal_of_going after]
    | ended final before status _ _ records =>
      rw [terminal_of_going before] at bound
      rw [records, status]
      cases final with
      | checkpointed => simpa [FinalState.status, terminal] using bound
      | _ => simpa [FinalState.status, terminal] using bound
  omega

end Velda.Broker
