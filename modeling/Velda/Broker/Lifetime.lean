import Velda.Broker.Reconnect

/-! The life of a session. It ends with a call of `Complete`, which the accounting sees. A
loop or an agent that is late may bring it back, and nothing else does. -/
variable {outs : List AgentOutput} {done : Ctx → Bool} {x : SessionPtr} {y : Session}

namespace Velda.Broker
open Lib List AgentOutput State Session Event

variable {cfg : Config}

def State.Live (s : State cfg) (x : SessionPtr) : Prop :=
  x ∈ s.created ∧ (s.sessions x).status.terminal = false

instance (s : State cfg) (x : SessionPtr) : Decidable (s.Live x) :=
  inferInstanceAs (Decidable (_ ∧ _))

def Event.closes (x : SessionPtr) : Event → Bool
  | .recordExecution y final => y = x && final ≠ .checkpointed
  | _ => false

/-- The branches of a loop that set the status of a session without a look at it. -/
def LoopEvent.revives (s : State cfg) (x : SessionPtr) (l : Loop) (e : LoopEvent) : Bool :=
  match l.state, e with
  | .queueing, .agent => (cfg.request x).shard.isSome
  | .sentToAgent, .response => (s.net.agentResponse x).head? = some .started
  | .staleTimerExpired, .expire => l.ctx.isSome
  | _, _ => false

/-- No session of the kind `P` that has ended is brought back. -/
def Lasting (P : SessionPtr → Bool) (s : State cfg) : Action → Prop
  | .loop x i e => P x = true → (s.sessions x).status.terminal = true →
      ∀ l ∈ (s.sessions x).loops[i]?, e.revives s x l = false
  | .agent a (.update _) => ∀ m ∈ s.net.reqChan a, ∀ c ∈ m.sessionCompletion,
      c.checkpointed = true → ∀ x ∈ (s.agents a).mySessions.lookup c.key, P x = true →
        (s.sessions x).status.terminal = false
  | _ => True

instance (P : SessionPtr → Bool) (s : State cfg) (act : Action) : Decidable (Lasting P s act) := by
  induction act using Action.casesOn with
  | agent a e => induction e using AgentEvent.casesOn <;> unfold Lasting <;> infer_instance
  | _ => unfold Lasting; infer_instance

def Event.record (x : SessionPtr) : Event → Option FinalState
  | .recordExecution y final => if y = x then some final else none
  | _ => none

/-- The sessions for which a message says that they did not start or are over. -/
def AgentUpdateRequest.reports (m : AgentUpdateRequest) : List SessionKey :=
  ((m.sessionInitResponse.filter fun r => !r.2).map (·.1)).toList ++
    (m.sessionCompletion.map (·.key)).toList

/-- The outputs that change session `x` or record an execution of it. -/
def AgentOutput.affects (x : SessionPtr) : AgentOutput → Bool
  | .complete z _ | .checkpointed z => z = x
  | .markStale l _ => x ∈ l
  | .log e => (e.record x).isSome
  | _ => false

/-- What the outputs of a turn on message `m` do to session `x`: at most one of them affects it,
and only a report ends it. -/
inductive Agent.Affected (g : Agent cfg) (m : Option AgentUpdateRequest) (x : SessionPtr) :
    List AgentOutput → Prop
  | none : Affected g m x []
  | stale (l : List SessionPtr) (time : Time) : x ∈ l → Affected g m x [.markStale l time]
  | complete {final : FinalState} {r : AgentUpdateRequest} {k : SessionKey} : m = some r →
      k ∈ r.reports → g.mySessions.lookup k = some x → final ≠ .checkpointed →
      final ≠ .cancelled → Affected g m x [.complete x final]
  | checkpointed {r : AgentUpdateRequest} {k : SessionKey} : m = some r → k ∈ r.reports →
      g.mySessions.lookup k = some x → Affected g m x [.checkpointed x]

/-- What a turn of an agent `g` on message `m` says about the end of sessions. -/
structure Agent.Verdicts (g : Agent cfg) (m : Option AgentUpdateRequest)
    (outs : List AgentOutput) : Prop where
  final : ∀ x final, .complete x final ∈ outs → final ≠ .checkpointed
  checkpointed : ∀ x, .checkpointed x ∈ outs → ∃ r ∈ m, ∃ c ∈ r.sessionCompletion,
    c.checkpointed = true ∧ g.mySessions.lookup c.key = some x
  apart : ∀ x final, .complete x final ∈ outs → .checkpointed x ∉ outs
  logged : ∀ e x, .log e ∈ outs → e.closes x = false

namespace Agent

lemma affects_stop (g : Agent cfg) (x : SessionPtr) :
    g.stop.2.countP (affects x) ≤ if x ∈ g.mySessions then 1 else 0 := by
  unfold stop
  cases g.stopping <;> cases g.receiving <;> simp [affects, Keyed.mem_def]

lemma affects_update (g : Agent cfg) (a : AgentPtr) (m : AgentUpdateRequest) (revoked : Bool)
    (x : SessionPtr) : (g.handleSessionUpdate a m revoked).2.countP (affects x) ≤ 1 := by
  obtain ⟨h, first, out, inited, completed, eq⟩ := g.updated a m revoked
  rw [eq, countP_append]
  obtain ⟨init, completion⟩ := m
  -- a session that the first half completes has left the agent, so the second half spares it
  have front : first.countP (affects x) ≤ if x ∈ h.mySessions then 0 else 1 := by
    cases inited with
    | none | unknown | started => exact Nat.zero_le _
    | @failed k z held =>
      by_cases own : z = x
      · subst own
        have left : z ∉ (g.rejoin k).mySessions := fun still => ((mem_rejoin held).mp still).2 rfl
        simp [affects, record, left]
      · simp [affects, record, own]
  have back : out.2.countP (affects x) ≤ if x ∈ h.mySessions then 1 else 0 := by
    cases completed with
    | none | unknown => exact Nat.zero_le _
    | unrevoked => exact h.affects_stop x
    | @checkpointed c z held =>
      by_cases own : z = x
      · simp [affects, record, own, own ▸ (Keyed.lookup_eq_some_iff.mp held).1]
      · simp [affects, record, own]
    | @completed c z held =>
      by_cases own : z = x
      · cases c.hasResult <;>
          simp [affects, record, own, own ▸ (Keyed.lookup_eq_some_iff.mp held).1]
      · cases c.hasResult <;> simp [affects, record, own]
  by_cases own : x ∈ h.mySessions
  · rw [if_pos own] at front back
    omega
  · rw [if_neg own] at front back
    omega

end Agent

def State.message (s : State cfg) : Action → Option AgentUpdateRequest
  | .agent a (.update _) => s.net.reqChan a
  | _ => none

variable {s t : State cfg} {act : Action}

lemma Turn.affects_once (turn : Turn s act a r) (x : SessionPtr) : r.2.countP (affects x) ≤ 1 := by
  cases turn with
  | @start _ idle => cases idle <;> simp [affects, record]
  | @agent _ e n input taken =>
    have handled := (s.agents a).handled a input
    generalize (s.agents a).handle a input = out at handled
    have settled : (Agent.settle a out).2.countP (affects x) = out.2.countP (affects x) := by
      unfold Agent.settle
      split <;> simp [affects, record]
    rw [settled]
    cases handled with
    | stop => exact ((s.agents a).affects_stop x).trans (by split <;> omega)
    | update m revoked => exact (s.agents a).affects_update a m revoked x
    | @refused r => cases r.accept <;> simp [affects]
    | @accepted r =>
      unfold Agent.acceptOutputs
      cases ((s.agents a).accept a r.session).receiving <;>
      cases ((s.agents a).mySessions.lookup (cfg.key r.session)).isSome <;>
      cases r.holdResourceOnly <;> simp [affects, record]
    | _ => simp [affects, record]
  | @sender _ f rest granted sent queue =>
    unfold Agent.runSend
    cases f with
    | session z ctx => cases granted <;> cases sent <;> simp [affects, record]
    | kill k =>
      cases sent with
      | true => simp [affects, record]
      | false => exact ((s.agents a).affects_stop x).trans (by split <;> omega)

lemma Turn.affected (turn : Turn s act a r) (x : SessionPtr) :
    (s.agents a).Affected (s.message act) x (r.2.filter (affects x)) := by
  have once := turn.affects_once x
  rw [countP_eq_length_filter] at once
  cases kept : r.2.filter (affects x) with
  | nil => exact .none
  | cons o rest =>
    obtain rfl : rest = [] := by simpa [kept] using once
    obtain ⟨mem, affected⟩ := mem_filter.mp (kept ▸ mem_cons_self)
    cases turn.made o mem with
    | markStale => exact .stale _ _ (by simpa [affects] using affected)
    | failed _ message same found =>
      obtain rfl : _ = x := by simpa [affects] using affected
      exact .complete message (by simp [AgentUpdateRequest.reports, same]) found (by simp) (by simp)
    | completed message same found =>
      obtain rfl : _ = x := by simpa [affects] using affected
      exact .complete message (by simp [AgentUpdateRequest.reports, same]) found (by simp) (by simp)
    | checkpointed message same found =>
      obtain rfl : _ = x := by simpa [affects] using affected
      exact .checkpointed message (by simp [AgentUpdateRequest.reports, same]) found
    | _ => cases affected

lemma Turn.verdicts (turn : Turn s act a r) : (s.agents a).Verdicts (s.message act) r.2  where
  final x final mem := by cases turn.made _ mem <;> simp
  checkpointed x mem := by
    cases turn.made _ mem with
    | checkpointed message same found kind => exact ⟨_, message, _, same, kind, found⟩
  apart x final ended saved := by
    have affected := turn.affected x
    have ended : .complete x final ∈ r.2.filter (affects x) := by simp [ended, affects]
    have saved : .checkpointed x ∈ r.2.filter (affects x) := by simp [saved, affects]
    generalize r.2.filter (affects x) = outs at affected ended saved
    cases affected <;> simp_all
  logged e x mem := by cases turn.made _ mem <;> rfl

namespace Session

lemma terminal_markStale (y : Session) (r : Request) (done : Ctx → Bool) (time : Time) :
    (y.markStale r done time).status.terminal = y.status.terminal := by
  unfold markStale
  split
  · next running => split <;> simp [start, running, ExecutionStatus.terminal]
  · next waiting => simp [start, waiting, ExecutionStatus.terminal]
  · rfl

lemma terminal_schedule (y : Session) (ctx : Ctx) :
    (y.schedule ctx).status.terminal = y.status.terminal := by
  unfold schedule
  split <;> simp_all [start, ExecutionStatus.terminal]

lemma terminal_signal (y : Session) : y.signal.status = y.status := by
  unfold signal
  split <;> rfl

end Session

namespace AgentOutput

lemma closes_of_complete (mem : .complete x final ∈ outs) (kind : final ≠ .checkpointed) :
    ∃ e ∈ outs.flatMap events, e.closes x = true :=
  ⟨.recordExecution x final, mem_flatMap.mpr ⟨_, mem, mem_cons_self⟩,
    by simp [Event.closes, kind]⟩

lemma terminal_onSession {o : AgentOutput} (h : y.status.terminal = true)
    (lasting : o ≠ .checkpointed x) : (o.onSession cfg done x y).status.terminal = true := by
  cases o with
  | complete z final =>
    simp only [onSession]
    split
    · exact y.terminal_finish final
    · exact h
  | checkpointed z =>
    have other : z ≠ x := fun same => lasting (same ▸ rfl)
    simpa [onSession, other] using h
  | markStale l time =>
    simp only [onSession]
    split
    · rwa [y.terminal_markStale]
    · exact h
  | _ => exact h

lemma terminal_onSessions (h : y.status.terminal = true) (lasting : .checkpointed x ∉ outs) :
    (onSessions cfg done x y outs).status.terminal = true := by
  induction outs generalizing y with
  | nil => exact h
  | cons o rest ih =>
    obtain ⟨first, later⟩ := not_or.mp (mt mem_cons.mpr lasting)
    exact ih (terminal_onSession h (Ne.symm first)) later

lemma terminal_of_complete (mem : .complete x final ∈ outs) (lasting : .checkpointed x ∉ outs) :
    (onSessions cfg done x y outs).status.terminal = true := by
  obtain ⟨before, after, rfl⟩ := append_of_mem mem
  simp only [onSessions, foldl_append, foldl_cons]
  refine terminal_onSessions ?_ fun later => lasting (by simp [later])
  simpa [onSession] using terminal_finish _ final

lemma complete_of_terminal (h : y.status.terminal = false)
    (past : (onSessions cfg done x y outs).status.terminal = true) :
    ∃ final, .complete x final ∈ outs := by
  induction outs generalizing y with
  | nil => simp [onSessions, h] at past
  | cons o rest ih =>
    by_cases own : ∃ final, o = .complete x final
    · obtain ⟨final, rfl⟩ := own
      exact ⟨final, mem_cons_self⟩
    · have still : (o.onSession cfg done x y).status.terminal = false := by
        cases o with
        | complete z final =>
          have other : z ≠ x := fun same => own ⟨final, same ▸ rfl⟩
          simpa [onSession, other] using h
        | checkpointed z =>
          simp only [onSession]
          split
          · rfl
          · exact h
        | markStale l time =>
          simp only [onSession]
          split
          · rwa [y.terminal_markStale]
          · exact h
        | _ => exact h
      obtain ⟨final, mem⟩ := ih still past
      exact ⟨final, mem_cons_of_mem _ mem⟩

end AgentOutput

lemma LoopStep.terminal (h : LoopStep s x i l e t) (past : (s.sessions x).status.terminal = true)
    (lasting : e.revives s x l = false) : (t.sessions x).status.terminal = true := by
  cases h with
  | noCtx | notReconnected => exact past
  | refused | shutdown | failed | confirmed | cancelShutdown | declined | staleShutdown | lost =>
    simp [turned, finishLoop, endLoop, terminal_finish]
  | hold state member => simp [LoopEvent.revives, state, member] at lasting
  | started state took =>
    obtain ⟨rest, queue, -⟩ := Net.takeResponse_cases took
    simp [LoopEvent.revives, state, queue] at lasting
  | reschedule state _ ctx => simp [LoopEvent.revives, state, ctx] at lasting
  | staleSignal | staleRefresh =>
    simp only [turned, Function.update_self, refresh]
    split <;> exact past
  | _ => simpa [turned, setLoop, takeSignal, endLoop] using past

lemma live_of_step {P : SessionPtr → Bool} (h : Step s act t) (lasting : Lasting P s act)
    (kind : P x = true) (live : t.Live x) :
    s.Live x ∨ act = .addSession x ∨ ∃ a, act = .register a x := by
  rcases made_of_step h live.1 with known | ⟨added, -⟩ | registered
  · refine .inl ⟨known, ?_⟩
    by_contra past
    have past : (s.sessions x).status.terminal = true := by simpa using past
    have ended : (t.sessions x).status.terminal = true := by
      refine session_of_turn (I := fun y => y.status.terminal = true) h x past
        (fun a r turn => ?_) (fun _ unused => absurd known unused.1)
        (fun _ _ unused => absurd known unused.1)
        (fun ctx _ _ => (terminal_schedule _ ctx).trans past)
        (fun _ _ _ _ => ?_) fun i l e act found taken => ?_
      · refine terminal_onSessions past fun back => ?_
        obtain ⟨m, read, c, completion, checkpointed, held⟩ := turn.verdicts.checkpointed x back
        cases turn with
        | @agent _ e =>
          cases e with
          | update revoked =>
            have going := lasting m read c completion checkpointed x held kind
            rw [past] at going
            cases going
          | _ => cases read
        | _ => cases read
      · rwa [terminal_signal]
      · subst act
        exact taken.terminal past (lasting kind past l found)
    rw [live.2] at ended
    cases ended
  · exact .inr (.inl added)
  · exact .inr (.inr registered)

lemma closed_of_step (h : Step s act t) (live : s.Live x)
    (past : (t.sessions x).status.terminal = true) : ∃ e ∈ s.news t, e.closes x = true := by
  have going : ∀ {b : Bool}, b = (s.sessions x).status.terminal → b = true → False := by
    rintro b rfl ended
    rw [live.2] at ended
    cases ended
  refine session_of_turn h x
    (I := fun y => y.status.terminal = true → ∃ e ∈ s.news t, e.closes x = true)
    (fun ended => (going rfl ended).elim) (fun a r turn ended => ?_)
    (fun _ unused => absurd live.1 unused.1) (fun _ _ unused => absurd live.1 unused.1)
    (fun ctx _ _ ended => (going (terminal_schedule _ ctx) ended).elim)
    (fun _ _ _ _ ended => (going (by rw [terminal_signal]) ended).elim)
    (fun i l e _ _ taken ended => ?_) past
  · obtain ⟨final, mem⟩ := complete_of_terminal live.2 ended
    rw [turn.news h]
    exact closes_of_complete mem (turn.verdicts.final x final mem)
  · cases taken with
    | noCtx | notReconnected => exact (going rfl ended).elim
    | refused | shutdown | failed | confirmed | cancelShutdown | declined | staleShutdown
    | lost => simp [news_turned, Event.closes]
    | hold => simp [notifyGang, turned, endLoop, ExecutionStatus.terminal] at ended
    | started | reschedule =>
      simp [turned, updateFromAgentResponse, endLoop, setLoop,
        ExecutionStatus.terminal] at ended
    | staleSignal | staleRefresh =>
      simp only [turned, Function.update_self, refresh] at ended
      split at ended <;> exact (going rfl ended).elim
    | _ =>
      exact (going rfl (by simpa [turned, setLoop, takeSignal,
        endLoop] using ended)).elim

lemma terminal_of_closed (h : Step s act t) (mem : e ∈ s.news t) (closes : e.closes x = true) :
    (t.sessions x).status.terminal = true := by
  cases source h mem with
  | @turn a r _ turn listed =>
    obtain ⟨o, made, logged⟩ := mem_flatMap.mp listed
    have complete : ∃ final, o = .complete x final := by
      cases o with
      | complete z final =>
        cases mem_singleton.mp logged
        simp only [Event.closes, Bool.and_eq_true, decide_eq_true_eq] at closes
        exact ⟨final, by rw [closes.1]⟩
      | checkpointed z =>
        cases mem_singleton.mp logged
        simp [Event.closes] at closes
      | log d =>
        cases mem_singleton.mp logged
        rw [turn.verdicts.logged _ x made] at closes
        cases closes
      | _ => cases logged
    obtain ⟨final, rfl⟩ := complete
    obtain ⟨n, rfl⟩ := turn.performed h
    rw [(sessions_performAll _ a r x).1]
    exact terminal_of_complete made (turn.verdicts.apart x final made)
  | recorded final _ ended =>
    simp only [Event.closes, Bool.and_eq_true, decide_eq_true_eq] at closes
    exact closes.1 ▸ ended
  | _ => cases closes

end Velda.Broker
