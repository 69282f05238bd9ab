import Velda.Broker.View

/-! The broker as one session sees it. A session is changed by its own calls and loops,
and by the agents that have it: when they report that it failed, completed or was
checkpointed, and when they stop. -/
namespace Velda.Broker
open Lib List Function AgentOutput State

variable {cfg : Config}

def AgentOutput.onSession (cfg : Config) (done : Ctx → Bool) (x : SessionPtr) (y : Session) :
    AgentOutput → Session
  | .complete z final => if z = x then y.finish final else y
  | .checkpointed z => if z = x then { y with status := .checkpointed } else y
  | .markStale l time => if x ∈ l then y.markStale (cfg.request x) done time else y
  | _ => y

def AgentOutput.onSessions (cfg : Config) (done : Ctx → Bool) (x : SessionPtr) (y : Session)
    (outs : List AgentOutput) : Session :=
  outs.foldl (onSession cfg done x) y

def AgentOutput.onResponse (x : SessionPtr) : AgentOutput → Option AgentSessionResponse
  | .respond z r => if z = x then some r else none
  | _ => none

lemma sessions_perform (a : AgentPtr) (s : State cfg) (o : AgentOutput) (x : SessionPtr) :
    (s.perform a o).sessions x = o.onSession cfg s.ctxDone x (s.sessions x) ∧
      (s.perform a o).ctxDone = s.ctxDone ∧ (s.perform a o).net.agentResponse x =
        s.net.agentResponse x ++ (o.onResponse x).toList := by
  cases o with
  | complete z final | checkpointed z =>
    refine ⟨?_, rfl, by simp [AgentOutput.onResponse]; rfl⟩
    by_cases same : z = x
    · subst same
      simp [State.perform, State.complete, State.checkpointed, AgentOutput.onSession]
    · simp [State.perform, State.complete, State.checkpointed, AgentOutput.onSession, same,
        update_of_ne (Ne.symm same)]
  | markStale l time =>
    exact ⟨rfl, rfl, by simp [onResponse]; rfl⟩
  | respond z r =>
    refine ⟨rfl, rfl, ?_⟩
    by_cases same : z = x
    · subst same
      simp [perform, modifyNet, Net.respond, onResponse]
    · simp [perform, modifyNet, Net.respond, onResponse, same,
        update_of_ne (Ne.symm same)]
  | _ =>
    exact ⟨rfl, rfl, by simp [onResponse]; rfl⟩

lemma sessions_performAll (s : State cfg) (a : AgentPtr) (r : Agent cfg × List AgentOutput)
    (x : SessionPtr) : (s.performAll a r).sessions x =
        onSessions cfg s.ctxDone x (s.sessions x) r.2 ∧ (s.performAll a r).net.agentResponse x =
        s.net.agentResponse x ++ r.2.filterMap (onResponse x) := by
  have folded : ∀ (outs : List AgentOutput) (s : State cfg),
      (outs.foldl (perform a) s).sessions x =
          outs.foldl (onSession cfg s.ctxDone x) (s.sessions x) ∧
        (outs.foldl (perform a) s).net.agentResponse x =
          s.net.agentResponse x ++ outs.filterMap (onResponse x) := by
    intro outs
    induction outs with
    | nil => simp
    | cons o rest ih =>
      intro s
      obtain ⟨session, done, response⟩ := sessions_perform a s o x
      obtain ⟨session', response'⟩ := ih (s.perform a o)
      rw [foldl_cons, foldl_cons, session', response', session, done, response,
        filterMap_cons]
      cases o.onResponse x <;> simp
  exact folded r.2 _

variable {s t : State cfg} {y : Session} {x : SessionPtr} {l : Loop} {act : Action} {i : Nat}

lemma LoopStep.sessions_of_ne {y : SessionPtr} (h : LoopStep s y i l e t) (other : x ≠ y) :
    t.sessions x = s.sessions x := by
  cases h with
  | noCtx | notReconnected => rfl
  | _ => exact update_of_ne other _ _

def State.reported (s : State cfg) (a : AgentPtr) : Session :=
  { status := .running, agent := some a, startTime := some s.now, lastActiveTime := s.now }

/-- A turn of a connection on its own state: the start of `Run`, a turn of it, or a turn of the
goroutine that sends. -/
inductive Turn (s : State cfg) : Action → AgentPtr → Agent cfg × List AgentOutput → Prop
  | start {a : AgentPtr} {idle : Bool} : idle = decide ((s.agents a).mySessions.size = 0) →
      Turn s (.startAgent a) a ((s.agents a).launched, (if idle then [.addAgent] else []) ++
        [.log (.notifyAgentAvailable a (!idle) ((s.agents a).freeSlots a))])
  | agent {a : AgentPtr} {e : AgentEvent} {n : Net cfg} {input : AgentInput} :
      s.net.takeInput a e = some (n, input) →
      Turn s (.agent a e) a (Agent.settle a ((s.agents a).handle a input))
  | sender {a : AgentPtr} {f : Send} {rest : List Send} (granted sent : Bool) :
      s.net.resChan a = f :: rest →
      Turn s (.sender a granted sent) a ((s.agents a).runSend a granted sent f)

lemma Turn.performed (turn : Turn s act a r) (h : Step s act t) :
    ∃ n, t = ({ s with net := n } : State cfg).performAll a r := by
  cases turn with
  | start idle =>
    subst idle
    cases h
    exact ⟨s.net, rfl⟩
  | agent taken =>
    cases h with
    | agent _ again =>
      rw [taken] at again
      cases again
      exact ⟨_, rfl⟩
  | sender _ _ queue =>
    cases h with
    | sender _ _ _ again =>
      rw [queue] at again
      cases again
      exact ⟨_, rfl⟩

lemma Turn.news (turn : Turn s act a r) (h : Step s act t) :
    s.news t = r.2.flatMap AgentOutput.events := by
  obtain ⟨n, rfl⟩ := turn.performed h
  have logged : (({ s with net := n } : State cfg).performAll a r).events =
      (r.2.flatMap AgentOutput.events).reverse ++ s.events := State.events_performAll _ a r
  rw [news_eq logged, reverse_reverse]

def Action.settles : Action → Option AgentPtr
  | .agent a .done | .agent a (.update _) | .sender a _ false => some a
  | _ => none

def AgentUpdateRequest.Names (m : AgentUpdateRequest) (k : SessionKey) : Prop :=
  m.sessionInitResponse = some (k, false) ∨ m.sessionCompletion.map (·.key) = some k

/-- What a turn does to others, and what has to hold for it. -/
inductive Made (s : State cfg) (a : AgentPtr) : Action → AgentOutput → Prop
  | addAgent {act : Action} : Made s a act .addAgent
  | removeAgent {act : Action} : Made s a act .removeAgent
  | crash {act : Action} : Made s a act .crash
  | respond {act : Action} (x : SessionPtr) (r : AgentSessionResponse) : Made s a act (.respond x r)
  | available (busy : Bool) (n : Int) :
      Made s a (.startAgent a) (.log (.notifyAgentAvailable a busy n))
  | markStale {act : Action} {l : List SessionPtr} (time : Time) : act.settles = some a →
      (∀ x ∈ l, x ∈ (s.agents a).mySessions) → Made s a act (.markStale l time)
  | failed {m : AgentUpdateRequest} {k : SessionKey} {x : SessionPtr} (revoked : Bool) :
      s.net.reqChan a = some m → m.sessionInitResponse = some (k, false) →
      (s.agents a).mySessions.lookup k = some x →
      Made s a (.agent a (.update revoked)) (.complete x .startupFailure)
  | completed {m : AgentUpdateRequest} {c : SessionCompletion} {x : SessionPtr} :
      s.net.reqChan a = some m → m.sessionCompletion = some c →
      (s.agents a).mySessions.lookup c.key = some x →
      Made s a (.agent a (.update true)) (.complete x .complete)
  | checkpointed {m : AgentUpdateRequest} {c : SessionCompletion} {x : SessionPtr} :
      s.net.reqChan a = some m → m.sessionCompletion = some c →
      (s.agents a).mySessions.lookup c.key = some x → c.checkpointed = true →
      Made s a (.agent a (.update true)) (.checkpointed x)
  | result {x : SessionPtr} : x ∈ (s.agents a).mySessions →
      Made s a (.agent a (.update true)) (.log (.updateTaskResult x))
  | revoked {x : SessionPtr} (revoked : Bool) : x ∈ (s.agents a).mySessions →
      Made s a (.agent a (.update revoked)) (.log (.revokeAccess a x))
  | idle {m : AgentUpdateRequest} {x : SessionPtr} (revoked : Bool) (n : Int) :
      s.net.reqChan a = some m → x ∈ (s.agents a).mySessions → m.Names (cfg.key x) →
      Made s a (.agent a (.update revoked)) (.log (.markIdle a n))
  | busy (n : Int) : s.net.statusChan a ≠ 0 → 0 < (s.agents a).mySessions.size →
      Made s a (.agent a .shutdown) (.log (.markBusy a n))
  | taken {r : SessionRequest} {rest : List SessionRequest} (n : Int) :
      s.net.sessionReq a = r :: rest → r.accept = true → (s.agents a).stopping = false →
      ((s.agents a).mySessions.lookup (cfg.key r.session)).isSome = false →
      Made s a (.agent a .sessionReq) (.log (.markBusy a n))
  | send {r : SessionRequest} {rest : List SessionRequest} :
      s.net.sessionReq a = r :: rest → r.accept = true →
      Made s a (.agent a .sessionReq) (.send (.session r.session r.ctx))
  | kill (k : KillRequest) : Made s a (.agent a .kill) (.send (.kill k))
  | deleting {e : AgentEvent} {n : Net cfg} {input : AgentInput} :
      s.net.takeInput a e = some (n, input) →
      (s.agents a).shutdownRequested = true ∨ (s.agents a).mySessions.size = 0 →
      ((s.agents a).handle a input).1.receiving = false →
      ((s.agents a).handle a input).1.mySessions = (s.agents a).mySessions →
      (∀ r, input = .sessionReq r → r.accept = false) →
      Made s a (.agent a e) (.log (.markDeleting a))
  | lost (e : AgentEvent) : Made s a (.agent a e) (.log (.markLost a))
  | granted {x : SessionPtr} {ctx : Option Ctx} {rest : List Send} (sent : Bool) :
      s.net.resChan a = .session x ctx :: rest →
      Made s a (.sender a true sent) (.log (.grantAccess a x))
  | unsent {x : SessionPtr} {ctx : Option Ctx} {rest : List Send} (granted : Bool) :
      s.net.resChan a = .session x ctx :: rest →
      Made s a (.sender a granted false) (.log (.revokeAccess a x))
  | sent {x : SessionPtr} {ctx : Option Ctx} {rest : List Send} (granted : Bool) :
      s.net.resChan a = .session x ctx :: rest →
      Made s a (.sender a granted true) (.log (.sendSession a x))
  | sendKill (granted : Bool) (k : KillRequest) :
      Made s a (.sender a granted true) (.log (.sendKill a k))

section

variable {a : AgentPtr}

lemma Made.stop {g : Agent cfg} (settles : act.settles = some a)
    (held : ∀ x ∈ g.mySessions, x ∈ (s.agents a).mySessions) :
    ∀ o ∈ g.stop.2, Made s a act o := by
  unfold Agent.stop
  split
  · simp
  · cases g.receiving <;> simpa [Made.removeAgent] using .markStale _ settles held

lemma Agent.Inited.lookup {g h : Agent cfg} (inited : g.Inited a r (h, outs))
    (found : h.mySessions.lookup k = some x) : g.mySessions.lookup k = some x := by
  cases inited with
  | none | unknown | started => exact found
  | failed =>
    rw [Keyed.lookup_eq_some_iff] at found ⊢
    exact ⟨(Keyed.mem_erase.mp found.1).1, found.2⟩

lemma Made.update {m : AgentUpdateRequest} (message : s.net.reqChan a = some m)
    (revoked : Bool) : ∀ o ∈ ((s.agents a).handleSessionUpdate a m revoked).2,
      Made s a (.agent a (.update revoked)) o := by
  obtain ⟨h, first, out, inited, completed, eq⟩ := (s.agents a).updated a m revoked
  have kept : ∀ {k x}, h.mySessions.lookup k = some x →
      (s.agents a).mySessions.lookup k = some x ∧ x ∈ (s.agents a).mySessions ∧ cfg.key x = k :=
    fun found => ⟨inited.lookup found, Keyed.lookup_eq_some_iff.mp (inited.lookup found)⟩
  obtain ⟨init, completion⟩ := m
  rw [eq]
  refine forall_mem_append.mpr ⟨?_, ?_⟩
  · cases inited with
    | none | unknown => simp
    | started => simp [Made.respond]
    | @failed k x found =>
      obtain ⟨held, own⟩ := Keyed.lookup_eq_some_iff.mp found
      simpa [Made.respond, Made.addAgent] using ⟨.failed _ message rfl found, .revoked _ held,
        .idle _ _ message held (.inl (by simp [own]))⟩
  · cases completed with
    | none | unknown => simp
    | @unrevoked c x found =>
      refine forall_mem_cons.mpr ⟨.revoked _ (kept found).2.1, Made.stop rfl fun x mem => ?_⟩
      exact (kept (Keyed.lookup_eq_some_iff.mpr ⟨mem, rfl⟩)).2.1
    | @checkpointed c x found known kind =>
      obtain ⟨here, held, own⟩ := kept found
      subst known
      simpa [Made.addAgent] using ⟨.revoked _ held, .checkpointed message rfl here kind,
        .idle _ _ message held (.inr (by simp [own]))⟩
    | @completed c x found known =>
      obtain ⟨here, held, own⟩ := kept found
      subst known
      have idle : ∀ n, Made s a (.agent a (.update true)) (.log (.markIdle a n)) :=
        fun n => .idle _ _ message held (.inr (by simp [own]))
      cases c.hasResult <;> simp [Made.addAgent, idle, Made.revoked _ held, Made.result held,
        Made.completed message rfl here]

lemma Turn.made {r : Agent cfg × List AgentOutput} (turn : Turn s act a r) :
    ∀ o ∈ r.2, Made s a act o := by
  cases turn with
  | @start _ idle => cases idle <;> simp [Made.addAgent, Made.available]
  | @agent _ e n input taken =>
    have received := Net.received taken
    have handled := (s.agents a).handled a input
    have settled : ∀ {r : Agent cfg × List AgentOutput}, (∀ o ∈ r.2, Made s a (.agent a e) o) →
        ∀ o ∈ (Agent.settle a r).2, Made s a (.agent a e) o := by
      intro r made
      unfold Agent.settle
      split
      · exact forall_mem_append.mpr ⟨made, forall_mem_singleton.mpr (.lost e)⟩
      · exact made
    refine settled ?_
    have deleting := Made.deleting taken
    generalize (s.agents a).handle a input = out at handled deleting ⊢
    cases handled with
    | stop =>
      cases received
      exact Made.stop rfl fun _ => id
    | update m revoked =>
      cases received with
      | update _ message => exact Made.update message revoked
    | confirmed requested => simpa using deleting (.inl requested) rfl rfl (by simp)
    | drained empty idle => simpa using deleting (.inr empty) idle rfl (by simp)
    | released _ requested declined =>
      simpa using deleting (.inl requested) rfl rfl (by simp [declined])
    | withdrawn => simp
    | unexpected => simp [Made.crash]
    | busy some =>
      cases received with
      | shutdown asked => simp [Made.busy _ asked some]
    | withdraw => simp [Made.removeAgent]
    | kill k =>
      cases received
      simp [Made.kill]
    | refused => split <;> simp [Made.respond]
    | declined => simp [Made.addAgent]
    | @accepted r goes accept =>
      cases received with
      | sessionReq queue =>
        unfold Agent.acceptOutputs
        cases new : ((s.agents a).mySessions.lookup (cfg.key r.session)).isSome <;>
        cases ((s.agents a).accept a r.session).receiving <;> cases r.holdResourceOnly <;>
        simp [Made.addAgent, Made.send queue accept] <;> exact .taken _ queue accept goes new
  | @sender _ f rest granted sent queue =>
    cases f with
    | session x ctx =>
      cases granted <;> cases sent <;> simp [Agent.runSend, Made.respond, Made.granted _ queue,
        Made.unsent _ queue, Made.sent _ queue]
    | kill k =>
      cases sent with
      | true => simp [Agent.runSend, Made.sendKill]
      | false => exact Made.stop rfl fun _ => id

end

lemma Session.status_finish (y : Session) (final : FinalState) :
    (y.finish final).status = .cancelled ∨ (y.finish final).status = .terminated := by
  unfold finish
  by_cases cancelled : final = .cancelled <;> simp [cancelled]

lemma Session.terminal_finish (y : Session) (final : FinalState) :
    (y.finish final).status.terminal = true := by
  rcases y.status_finish final with status | status <;> rw [status] <;> rfl

/-- Where an event of a step comes from. -/
inductive Source (s t : State cfg) (act : Action) : Event → Prop
  | turn {a : AgentPtr} {r : Agent cfg × List AgentOutput} {e : Event} : Turn s act a r →
      e ∈ r.2.flatMap AgentOutput.events → Source s t act e
  | killed {x : SessionPtr} {force : Bool} (status : ExecutionStatus) : act = .kill x force →
      Source s t act (.killed x status)
  | requestKill (a : AgentPtr) (k : KillRequest) : Source s t act (.requestKill a k)
  | registered {a : AgentPtr} {x : SessionPtr} : act = .register a x →
      Source s t act (.reGrantAccess a x)
  | asked {x : SessionPtr} {i : Nat} {e : LoopEvent} : act = .loop x i e →
      Source s t act (.requestWorker x)
  | withdrawn {x : SessionPtr} {i : Nat} {e : LoopEvent} : act = .loop x i e →
      Source s t act (.requestCancelled x)
  | revoked {x : SessionPtr} {i : Nat} {e : LoopEvent} (a : AgentPtr) : act = .loop x i e →
      Source s t act (.revokeAccess a x)
  | recorded {x : SessionPtr} {i : Nat} {e : LoopEvent} (final : FinalState) : act = .loop x i e →
      (t.sessions x).status.terminal = true → Source s t act (.recordExecution x final)

lemma logged_of_step (h : Step s act t) :
    ∃ evs, t.events = evs ++ s.events ∧ ∀ e ∈ evs, Source s t act e := by
  have turned : ∀ {a r}, Turn s act a r →
      ∃ evs, t.events = evs ++ s.events ∧ ∀ e ∈ evs, Source s t act e := by
    intro a r turn
    obtain ⟨n, rfl⟩ := turn.performed h
    exact ⟨_, State.events_performAll _ a r, fun e mem => .turn turn (mem_reverse.mp mem)⟩
  have ended : ∀ {x i l err final n evs}, ((s.turned x ((s.sessions x).finishLoop i l err final) n
      true evs).sessions x).status.terminal = true := by
    simp [State.turned, Session.finishLoop, Session.endLoop, Session.terminal_finish]
  cases h with
  | killRunning force => exact ⟨_, rfl, by simp [Source.killed _ rfl, Source.requestKill]⟩
  | killSignal force => exact ⟨_, rfl, by simp [Source.killed _ rfl]⟩
  | register => exact ⟨[_], rfl, by simp [Source.registered]⟩
  | startAgent => exact turned (.start rfl)
  | agent _ taken => exact turned (.agent taken)
  | sender granted sent _ queue => exact turned (.sender granted sent queue)
  | loop _ taken =>
    cases taken with
    | noCtx | notReconnected => exact ⟨[], rfl, by simp⟩
    | enqueue => exact ⟨_, rfl, by split <;> simp [Source.asked rfl]⟩
    | refused | shutdown | failed | staleShutdown =>
      exact ⟨_, rfl, forall_mem_singleton.mpr (.recorded _ rfl ended)⟩
    | confirmed | cancelShutdown | declined =>
      exact ⟨_, rfl, by simpa using ⟨.recorded _ rfl ended, .withdrawn rfl⟩⟩
    | lost =>
      refine ⟨_, rfl, fun e mem => ?_⟩
      rcases mem_append.mp mem with revoked | last
      · obtain ⟨a, -, rfl⟩ := Option.map_eq_some_iff.mp (Option.mem_toList.mp revoked)
        exact .revoked a rfl
      · cases mem_singleton.mp last
        exact .recorded _ rfl ended
    | killStarted | reconnectKill => exact ⟨_, rfl, by simp [Source.requestKill]⟩
    | _ => exact ⟨[], rfl, by simp⟩
  | _ => exact ⟨[], rfl, by simp⟩

lemma source (h : Step s act t) (mem : e ∈ s.news t) : Source s t act e := by
  obtain ⟨evs, events, source⟩ := logged_of_step h
  exact State.forall_news events source e mem

/-- The rule for what a step makes of one session. -/
lemma session_of_turn (h : Step s act t) (x : SessionPtr) {I : Session → Prop}
    (before : I (s.sessions x)) (told : ∀ a r, Turn s act a r →
      I (onSessions cfg s.ctxDone x (s.sessions x) r.2))
    (added : act = .addSession x → s.Unused x → I {})
    (registered : ∀ a, act = .register a x → s.Unused x → I (s.reported a))
    (scheduled : ∀ ctx, act = .schedule x ctx → x ∈ s.created → I ((s.sessions x).schedule ctx))
    (signalled : ∀ force, act = .kill x force → x ∈ s.created →
      (s.sessions x).status = .queueing ∨ (s.sessions x).status = .waitingForOtherShards ∨
        (s.sessions x).status = .stale → I (s.sessions x).signal)
    (looped : ∀ i l e, act = .loop x i e → (s.sessions x).loops[i]? = some l →
      LoopStep s x i l e t → I (t.sessions x)) : I (t.sessions x) := by
  have performed : ∀ {n a r}, Turn s act a r →
      I ((({ s with net := n } : State cfg).performAll a r).sessions x) := by
    intro n a r turn
    rw [(sessions_performAll _ a r x).1]
    exact told a r turn
  have updated : ∀ {y z}, (x = y → I z) → I (Function.update s.sessions y z x) := by
    intro y z own
    rw [update_apply]
    split
    · next same => exact own same
    · exact before
  cases h with
  | addSession unused => exact updated fun same => added (same ▸ rfl) (same ▸ unused)
  | schedule ctx known =>
    refine updated fun same => ?_
    subst same
    exact scheduled ctx rfl known
  | killRunning => exact updated fun same => same ▸ before
  | killSignal force known waits =>
    refine updated fun same => ?_
    subst same
    exact signalled force rfl known waits
  | @register a _ _ unused =>
    exact updated fun same => registered a (same ▸ rfl) (same ▸ unused)
  | startAgent => exact performed (.start rfl)
  | agent _ taken => exact performed (.agent taken)
  | sender granted sent _ queue => exact performed (.sender granted sent queue)
  | @loop y i l e _ found taken =>
    by_cases same : x = y
    · subst same
      exact looped i l e rfl found taken
    · rw [taken.sessions_of_ne same]
      exact before
  | _ => exact before

lemma session_of_step (h : Step s act t) (x : SessionPtr) {I : Session → Prop}
    (before : I (s.sessions x)) (output : ∀ o y, I y → I (onSession cfg s.ctxDone x y o))
    (added : act = .addSession x → s.Unused x → I {})
    (registered : ∀ a, act = .register a x → s.Unused x → I (s.reported a))
    (scheduled : ∀ ctx, act = .schedule x ctx → I ((s.sessions x).schedule ctx))
    (signalled : ∀ force, act = .kill x force → I (s.sessions x).signal)
    (looped : ∀ i l e, act = .loop x i e → (s.sessions x).loops[i]? = some l →
      LoopStep s x i l e t → I (t.sessions x)) : I (t.sessions x) := by
  refine session_of_turn h x before (fun a r _ => ?_) added registered
    (fun ctx same _ => scheduled ctx same) (fun force same _ _ => signalled force same) looped
  generalize s.sessions x = y at before
  induction r.2 generalizing y with
  | nil => exact before
  | cons o rest ih => exact ih _ (output o y before)

lemma created_performAll (s : State cfg) (a : AgentPtr) (r : Agent cfg × List AgentOutput) :
    (s.performAll a r).created = s.created :=
  performAll_rule (P := fun u => u.created = s.created) rfl
    fun u o same => Eq.trans (by cases o <;> rfl) same

lemma created_of_step (h : Step s act t) (mem : x ∈ s.created) : x ∈ t.created := by
  cases h with
  | addSession | register => exact mem_cons_of_mem _ mem
  | startAgent | agent | sender => simpa [startAgent, created_performAll] using mem
  | loop _ taken => cases taken <;> exact mem
  | _ => exact mem

/-- At most one loop, which listens to the newest channels; there is one while the session is
queueing or stale, and none while it runs or waits for its gang. -/
structure Session.Sound (y : Session) : Prop where
  one : y.loops.length ≤ 1
  newest : ∀ l ∈ y.loops, l.generation = y.generation ∧ 0 < y.generation
  idle : y.status = .unspecified ∨ y.status = .running ∨ y.status = .waitingForOtherShards →
    y.loops = []
  live : y.status = .queueing ∨ y.status = .stale → y.loops ≠ []
  reconnect : y.staleReconnect = []

namespace Session

lemma Sound.loops_eq (S : y.Sound) (h : y.loops[i]? = some l) : i = 0 ∧ y.loops = [l] := by
  have one := S.one
  rcases loops : y.loops with _ | ⟨k, _ | ⟨m, rest⟩⟩
  · simp [loops] at h
  · rw [loops] at h
    cases i with
    | zero =>
      cases h
      exact ⟨rfl, rfl⟩
    | succ i => cases h
  · rw [loops] at one
    simp at one

lemma Sound.started (loops : y.loops = []) (reconnect : y.staleReconnect = [])
    (waits : y.status = .queueing ∨ y.status = .stale) : (y.start state ctx rest).Sound := by
  refine ⟨?_, ?_, ?_, ?_, reconnect⟩
  · simp [start, loops]
  · simp [start, loops]
  · intro idle
    simp only [start] at idle
    rcases waits with waits | waits <;> rw [waits] at idle <;> simp at idle
  · simp [start]

lemma Sound.ended (loops : y.loops = []) (reconnect : y.staleReconnect = [])
    (status : y.status ≠ .queueing ∧ y.status ≠ .stale) : y.Sound where
  one := by simp [loops]
  newest := by simp [loops]
  idle _ := loops
  live waits := absurd waits (by simpa using status)
  reconnect := reconnect

lemma Sound.output (S : y.Sound) (done : Ctx → Bool) (x : SessionPtr) (o : AgentOutput) :
    (o.onSession cfg done x y).Sound := by
  cases o with
  | complete z final =>
    simp only [onSession]
    split
    · have status := y.status_finish final
      refine ⟨S.one, S.newest, fun idle => ?_, fun waits => ?_, S.reconnect⟩
      · rcases status with status | status <;> rw [status] at idle <;> simp at idle
      · rcases status with status | status <;> rw [status] at waits <;> simp at waits
    · exact S
  | checkpointed z =>
    simp only [onSession]
    split
    · exact ⟨S.one, S.newest, fun idle => by simp at idle, fun waits => by simp at waits,
        S.reconnect⟩
    · exact S
  | markStale l time =>
    simp only [onSession]
    split
    · unfold markStale
      split
      · next running =>
        split
        · exact .started (S.idle (.inr (.inl running))) S.reconnect (.inr rfl)
        · exact S
      · next waiting => exact .started (S.idle (.inr (.inr waiting))) S.reconnect (.inl rfl)
      · exact S
    · exact S
  | _ => exact S

lemma Sound.busy (S : y.Sound) (loops : y.loops = [l]) :
    ¬ (y.status = .unspecified ∨ y.status = .running ∨ y.status = .waitingForOtherShards) := by
  intro idle
  have none := S.idle idle
  rw [loops] at none
  cases none

lemma Sound.single (loops : y.loops = [l])
    (newest : l.generation = y.generation ∧ 0 < y.generation) (reconnect : y.staleReconnect = [])
    (busy : ¬ (y.status = .unspecified ∨ y.status = .running ∨
      y.status = .waitingForOtherShards)) : y.Sound where
  one := by simp [loops]
  newest := by simpa [loops] using newest
  idle idle := absurd idle busy
  live _ := by simp [loops]
  reconnect := reconnect

lemma Sound.refresh (S : y.Sound) {done : Ctx → Bool} (loops : y.loops = [l])
    (newest : m.generation = l.generation) : (y.refresh done 0 m).Sound := by
  have generation : m.generation = y.generation ∧ 0 < y.generation := by
    rw [newest]
    exact S.newest l (by simp [loops])
  unfold Session.refresh
  split
  · exact .single (l := { m with ctx := y.scheduleCtx.head? }) (by simp [loops]) generation
      S.reconnect (S.busy loops)
  · exact .single (by simp [loops]) generation S.reconnect (S.busy loops)

lemma Sound.looped (S : (s.sessions x).Sound) (found : (s.sessions x).loops[i]? = some l)
    (h : LoopStep s x i l e t) : (t.sessions x).Sound := by
  obtain ⟨rfl, loops⟩ := S.loops_eq found
  have newest := S.newest l (by simp [loops])
  have busy := S.busy loops
  have reconnect := S.reconnect
  cases h with
  | noCtx | notReconnected => exact S
  | refused | shutdown | failed | confirmed | cancelShutdown | declined | staleShutdown | lost =>
    apply Sound.ended <;>
      simp [turned, finishLoop, finish, endLoop, loops, reconnect]
  | hold | started =>
    apply Sound.ended <;>
      simp [turned, notifyGang, updateFromAgentResponse, endLoop, loops, reconnect]
  | staleSignal =>
    have taken : ({ (s.sessions x).takeSignal l.generation with
        schedulingErr := some .killed } : Session).Sound :=
      .single loops newest reconnect busy
    simpa [turned] using
      taken.refresh (m := { l with state := .staleCancelled }) loops rfl
  | staleRefresh => simpa [turned] using S.refresh loops rfl
  | reconnected _ mem | reconnectKill _ mem | reconnectedLate _ _ mem =>
    rw [reconnect] at mem
    cases mem
  | reschedule =>
    exact .single (l := { l with state := .created }) (by simp [turned, setLoop, loops])
      (by simpa [turned, setLoop] using newest)
      (by simpa [turned, setLoop] using reconnect) (by simp [turned, setLoop])
  | _ =>
    refine .single (by simp [turned, setLoop, takeSignal, loops]; rfl) ?_ ?_ ?_
    · simpa [turned, setLoop, takeSignal] using newest
    · simpa [turned, setLoop, takeSignal] using reconnect
    · simpa [turned, setLoop, takeSignal] using busy

end Session

/-- A checkpointed session is scheduled again only after its last loop has returned. -/
def Resumed (x : SessionPtr) (s : State cfg) : Action → Prop
  | .schedule y _ => y = x → (s.sessions x).status = .checkpointed → (s.sessions x).loops = []
  | _ => True

instance (x : SessionPtr) (s : State cfg) (act : Action) : Decidable (Resumed x s act) := by
  induction act using Action.casesOn <;> unfold Resumed <;> infer_instance

lemma Session.Sound.fresh : ({} : Session).Sound := .ended rfl rfl (by simp)

lemma Session.Sound.reported (s : State cfg) (a : AgentPtr) : (s.reported a).Sound :=
  .ended rfl rfl (by simp [State.reported])

lemma Session.Sound.schedule (S : (s.sessions x).Sound) (resumed : Resumed x s (.schedule x ctx)) :
    ((s.sessions x).schedule ctx).Sound := by
  refine schedule_rule S (fun _ _ => ⟨S.one, S.newest, S.idle, S.live, S.reconnect⟩)
    fun starts _ _ => .started ?_ S.reconnect (.inl rfl)
  exact starts.elim (resumed rfl) fun fresh => S.idle (.inl fresh)

lemma Session.Sound.step (S : (s.sessions x).Sound) (resumed : Resumed x s act) (h : Step s act t) :
    (t.sessions x).Sound := by
  refine session_of_step h x S (fun o y inv => inv.output _ x o) (fun _ _ => .fresh)
    (fun a _ _ => .reported s a) (fun ctx own => S.schedule (by rwa [own] at resumed)) ?_
    fun i l e _ found taken => S.looped found taken
  intro force _
  unfold Session.signal
  split
  · exact S
  · exact ⟨S.one, S.newest, S.idle, S.live, S.reconnect⟩

lemma sound_of_reachable {ok : State cfg → Action → Prop}
    (resumed : ∀ s act, ok s act → Resumed x s act) (h : Reachable step ok .init s) :
    (s.sessions x).Sound :=
  Reachable.invariant (I := fun s : State cfg => (s.sessions x).Sound)
    (.ended rfl rfl (by simp [init]))
    (fun s act _ S meets taken => S.step (resumed s act meets) (step_cases taken).2) h

end Velda.Broker
