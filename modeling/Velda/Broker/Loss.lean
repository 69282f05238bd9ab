import Velda.Broker.Drain
import Velda.Broker.References
import Velda.Broker.Told

/-! The end of an agent's connection. When `Run` stops it calls `MarkStale` for the
sessions it has, which acts on those that run and on those that wait for their gang.
A session in any other phase must have learned of the loss by itself. -/
namespace Velda.Broker
open Lib List Function AgentOutput State Session Net Agent

variable {cfg : Config}

def SchedulingState.waits : SchedulingState → Bool
  | .sentToAgent | .awaitingKill => true
  | _ => false

def Session.Waits (y : Session) : Prop := ∃ l ∈ y.loops, l.state.waits = true

instance (y : Session) : Decidable y.Waits := inferInstanceAs (Decidable (∃ l ∈ y.loops, _))

/-- The session does not depend on agent `a`: it is over, stale, with another agent, scheduled
anew, or has a response or will get one. -/
def Settled (a : AgentPtr) (y : Session) (responses : List AgentSessionResponse) (sent : Prop) :
    Prop :=
  y.agent ≠ some a ∨ y.status.terminal = true ∨ y.status = .stale ∨ responses ≠ [] ∨ sent ∨
    (y.loops ≠ [] ∧ ¬ y.Waits)

/-- What holds between agent `a` and session `x` with state `y`, its responses, whether the agent
has it, whether the agent is stopping, and whether a first request is on its way. -/
structure Bond (cfg : Config) (a : AgentPtr) (x : SessionPtr) (y : Session)
    (responses : List AgentSessionResponse) (held : Prop) (stopping : Bool) (sent : Prop) :
    Prop where
  alone : y.Waits → (cfg.request x).shard = none
  fresh : y.status = .unspecified → y.agent = none
  first : (cfg.request x).shard = none → .started ∈ responses →
    y.Waits ∧ .started ∉ responses.tail
  running : y.status = .running → y.agent = some a → held ∧ stopping = false
  waiting : y.Waits → y.agent = some a → responses ≠ [] ∨ sent ∨ held ∧ stopping = false
  started : y.Waits → y.agent = some a → .started ∈ responses → held ∧ stopping = false
  lost : stopping = true → held → Settled a y responses sent

def State.Bonded (s : State cfg) (a : AgentPtr) (x : SessionPtr) : Prop :=
  Bond cfg a x (s.sessions x) (s.net.agentResponse x) (x ∈ (s.agents a).mySessions)
    (s.agents a).stopping (s.Sent a x)

variable {s t : State cfg} {b : AgentPtr} {l : Loop} {input : AgentInput} {n : Net cfg}
  {stopping' : Bool} {e : AgentEvent}

section Bond

variable {a : AgentPtr} {x : SessionPtr} {y z : Session} {responses : List AgentSessionResponse}
  {held held' sent sent' : Prop} {stopping : Bool}

lemma Settled.mono (h : Settled a y responses sent) (grow : sent → sent') :
    Settled a y responses sent' :=
  h.imp_right (.imp_right (.imp_right (.imp_right (.imp_left grow))))

section

variable (B : Bond cfg a x y responses held stopping sent)
include B

lemma Bond.mono (same : held' ↔ held)
    (grow : sent → sent') : Bond cfg a x y responses held' stopping sent' :=
  { B with
    running := fun now own => (B.running now own).imp_left same.mpr
    waiting := fun now own => (B.waiting now own).imp_right (.imp grow (.imp_left same.mpr))
    started := fun now own mem => (B.started now own mem).imp_left same.mpr
    lost := fun now here => (B.lost now (same.mp here)).mono grow }

lemma Bond.of_same
    (status : z.status = y.status) (agent : z.agent = y.agent) (waits : z.Waits ↔ y.Waits)
    (loops : y.loops ≠ [] → z.loops ≠ []) : Bond cfg a x z responses held stopping sent where
  alone now := B.alone (waits.mp now)
  fresh now := by rw [agent]; exact B.fresh (status ▸ now)
  first none mem := by rw [waits]; exact B.first none mem
  running now at' := B.running (status ▸ now) (agent ▸ at')
  waiting now at' := B.waiting (waits.mp now) (agent ▸ at')
  started now at' := B.started (waits.mp now) (agent ▸ at')
  lost now here := by
    have settled := B.lost now here
    rw [Settled, ← agent, ← status, ← waits] at settled
    exact settled.imp_right (.imp_right (.imp_right (.imp_right (.imp_right (.imp_left loops)))))

lemma Bond.of_loops_eq
    (status : z.status = y.status) (agent : z.agent = y.agent) (loops : z.loops = y.loops) :
    Bond cfg a x z responses held stopping sent :=
  B.of_same status agent (by rw [Session.Waits, loops, Session.Waits]) (loops ▸ id)

lemma Bond.silent (goes : ¬ y.Waits) : (cfg.request x).shard = none → .started ∉ responses :=
  fun none mem => goes (B.first none mem).1

end

lemma Bond.of_idle (loops : y.loops = []) (running : y.status ≠ .running)
    (fresh : y.status = .unspecified → y.agent = none)
    (first : (cfg.request x).shard = none → .started ∉ responses)
    (lost : stopping = true → held → Settled a y responses sent) :
    Bond cfg a x y responses held stopping sent := by
  have waits : ¬ y.Waits := by simp [Session.Waits, loops]
  exact {
    alone := fun now => absurd now waits
    fresh := fresh
    first := fun none mem => absurd mem (first none)
    running := fun now => absurd now running
    waiting := fun now => absurd now waits
    started := fun now => absurd now waits
    lost := lost }

lemma Bond.of_over (loops : y.loops = []) (past : y.status = .cancelled ∨ y.status = .terminated)
    (first : (cfg.request x).shard = none → .started ∉ responses) :
    Bond cfg a x y responses held stopping sent :=
  .of_idle loops (by rcases past with past | past <;> simp [past])
    (by rcases past with past | past <;> simp [past]) first
    fun _ _ => .inr (.inl (by rcases past with past | past <;> simp [past,
      ExecutionStatus.terminal]))

lemma Bond.of_loop (loops : y.loops = [l]) (goes : l.state.waits = false)
    (busy : ¬ (y.status = .unspecified ∨ y.status = .running ∨ y.status = .waitingForOtherShards))
    (first : (cfg.request x).shard = none → .started ∉ responses) :
    Bond cfg a x y responses held stopping sent := by
  have waits : ¬ y.Waits := by simp [Session.Waits, loops, goes]
  rw [not_or, not_or] at busy
  exact {
    alone := fun now => absurd now waits
    fresh := fun now => absurd now busy.1
    first := fun none mem => absurd mem (first none)
    running := fun now => absurd now busy.2.1
    waiting := fun now => absurd now waits
    started := fun now => absurd now waits
    lost := fun _ _ => .inr (.inr (.inr (.inr (.inr ⟨by simp [loops], waits⟩)))) }

lemma Bond.refresh (done : Ctx → Bool) (loops : y.loops = [l]) (goes : m.state.waits = false)
    (busy : ¬ (y.status = .unspecified ∨ y.status = .running ∨ y.status = .waitingForOtherShards))
    (first : (cfg.request x).shard = none → .started ∉ responses) :
    Bond cfg a x (y.refresh done 0 m) responses held stopping sent := by
  unfold Session.refresh
  split
  · exact .of_loop (l := { m with ctx := y.scheduleCtx.head? }) (by simp [loops]) goes busy first
  · exact .of_loop (by simp [loops]) goes busy first

section

variable (B : Bond cfg a x y responses held stopping sent)
include B

lemma Bond.of_elsewhere
    (other : y.agent ≠ some a) : Bond cfg a x y responses held' stopping' sent' :=
  { B with
    running := fun _ own => absurd own other
    waiting := fun _ own => absurd own other
    started := fun _ own => absurd own other
    lost := fun _ _ => .inl other }

lemma Bond.fail (e : AgentError) :
    Bond cfg a x y (responses ++ [.error e]) held stopping sent' := by
  have old : .started ∈ responses ++ [.error e] → .started ∈ responses := by simp
  exact { B with
    first := fun none mem => by
      obtain ⟨waits, last⟩ := B.first none (old mem)
      refine ⟨waits, ?_⟩
      cases responses with
      | nil => simp
      | cons r rest => simpa using last
    waiting := fun _ _ => .inl (by simp)
    started := fun waits own mem => B.started waits own (old mem)
    lost := fun _ _ => .inr (.inr (.inr (.inl (by simp)))) }

lemma Bond.fails (es : List AgentError) :
    Bond cfg a x y (responses ++ es.map .error) held stopping sent := by
  induction es generalizing responses with
  | nil => simpa using B
  | cons e rest ih => simpa using ih (B.fail e)

lemma Bond.leave (running : y.status = .running → y.agent ≠ some a)
    (waiting : y.Waits → y.agent = some a → responses ≠ [] ∧ .started ∉ responses)
    (settled : held' → Settled a y responses sent') :
    Bond cfg a x y responses held' stopping' sent' :=
  { B with
    running := fun now own => absurd own (running now)
    waiting := fun now own => .inl (waiting now own).1
    started := fun now own mem => absurd mem (waiting now own).2
    lost := fun _ => settled }

lemma Bond.of_absent (absent : ¬ held)
    (gone : ¬ held') (grow : sent → sent') : Bond cfg a x y responses held' stopping' sent' :=
  { B with
    running := fun now own => absurd (B.running now own).1 absent
    waiting := fun now own =>
      (B.waiting now own).imp_right (.imp grow fun here => absurd here.1 absent)
    started := fun now own mem => absurd (B.started now own mem).1 absent
    lost := fun _ here => absurd here gone }

lemma Bond.hold (here : held') : Bond cfg a x y responses held' false sent' :=
  { B with
    running := fun _ _ => ⟨here, rfl⟩
    waiting := fun _ _ => .inr (.inr ⟨here, rfl⟩)
    started := fun _ _ _ => ⟨here, rfl⟩
    lost := fun now => by cases now }

/-- The only response says that the session has started. -/
lemma Bond.start_alone (waits : y.Waits)
    (goes : y.agent = some a → held' ∧ stopping' = false) :
    Bond cfg a x y [.started] held' stopping' sent' :=
  { B with
    first := fun _ _ => ⟨waits, by simp⟩
    running := fun _ => goes
    waiting := fun _ _ => .inl (by simp)
    started := fun _ own _ => goes own
    lost := fun _ _ => .inr (.inr (.inr (.inl (by simp)))) }

lemma Bond.finish (final : FinalState) :
    Bond cfg a x (y.finish final) responses held stopping sent := by
  have past := y.status_finish final
  exact { B with
    fresh := fun now => by rcases past with past | past <;> rw [past] at now <;> cases now
    running := fun now => by rcases past with past | past <;> rw [past] at now <;> cases now
    lost := fun _ _ => .inr (.inl (by rcases past with past | past <;> rw [past] <;> rfl)) }

lemma Bond.finish_leave (final : FinalState)
    (waiting : y.Waits → y.agent = some a → responses ≠ [] ∧ .started ∉ responses) :
    Bond cfg a x (y.finish final) responses held' stopping sent' := by
  have past := y.status_finish final
  refine (B.finish final).leave (fun now => ?_) waiting fun _ => .inr (.inl ?_)
  · rcases past with past | past <;> rw [past] at now <;> cases now
  · rcases past with past | past <;> rw [past] <;> rfl

lemma Bond.start_member (member : (cfg.request x).shard ≠ none) :
    Bond cfg a x y (responses ++ [.started]) held stopping sent' :=
  { B with
    first := fun none => absurd none member
    waiting := fun now => absurd (B.alone now) member
    started := fun now => absurd (B.alone now) member
    lost := fun _ _ => .inr (.inr (.inr (.inl (by simp)))) }

lemma Bond.checkpoint (goes : ¬ y.Waits) (gone : held' → y.agent ≠ some a) :
    Bond cfg a x { y with status := .checkpointed } responses held' stopping sent' where
  alone now := absurd now goes
  fresh now := by cases now
  first := B.first
  running now := by cases now
  waiting now := absurd now goes
  started now := absurd now goes
  lost _ here := .inl (gone here)

end

section

variable (S : y.Sound)
  (B : Bond cfg a x y responses held stopping sent)
  (r : Request)
  (done : Ctx → Bool)
include S B r done

lemma Bond.markStale_rule {time : Time} (late : y.status = .running →
      ¬ y.lastActiveTime < time → Bond cfg a x y responses held' stopping' sent')
    (other : y.status ≠ .running → y.status ≠ .waitingForOtherShards →
      Bond cfg a x y responses held' stopping' sent') :
    Bond cfg a x (y.markStale r done time) responses held' stopping' sent' := by
  unfold Session.markStale
  split
  · next running =>
    have loops := S.idle (.inr (.inl running))
    split
    · exact .of_loop (by simp [loops]; rfl) rfl (by simp [start])
        (B.silent (by simp [Session.Waits, loops]))
    · next old => exact late running old
  · next waiting =>
    have loops := S.idle (.inr (.inr waiting))
    exact .of_loop (by simp [loops]; rfl) rfl (by simp [start])
      (B.silent (by simp [Session.Waits, loops]))
  · next notRunning notWaiting => exact other notRunning notWaiting

lemma Bond.stop {time : Time}
    (seen : y.agent = some a → (y.status = .running → y.lastActiveTime < time) ∧
      y.status ≠ .checkpointed ∧ (y.Waits → responses ≠ [] ∧ .started ∉ responses)) :
    Bond cfg a x (y.markStale r done time) responses held' true sent' := by
  refine B.markStale_rule S r done (fun running late => ?_) fun notRunning notWaiting => ?_
  · exact B.of_elsewhere fun own => late ((seen own).1 running)
  · by_cases own : y.agent = some a
    · obtain ⟨-, kept, answered⟩ := seen own
      refine B.leave (fun now => absurd now notRunning) (fun now _ => answered now) fun _ => ?_
      cases status : y.status with
      | unspecified => exact .inl (by simp [B.fresh status])
      | queueing =>
        by_cases waits : y.Waits
        · exact .inr (.inr (.inr (.inl (answered waits).1)))
        · exact .inr (.inr (.inr (.inr (.inr ⟨S.live (.inl status), waits⟩))))
      | terminated | cancelled => exact .inr (.inl (by rw [status]; rfl))
      | stale => exact .inr (.inr (.inl status))
      | checkpointed => exact absurd status kept
      | running => exact absurd status notRunning
      | waitingForOtherShards => exact absurd status notWaiting
    · exact B.of_elsewhere own

end

end Bond

lemma Session.waits_iff {y : Session} (loops : y.loops = [l]) :
    y.Waits ↔ l.state.waits = true := by
  simp [Session.Waits, loops]

lemma Bond.looped {a : AgentPtr} {e : LoopEvent} (S : (s.sessions x).Sound) (B : s.Bonded a x)
    (found : (s.sessions x).loops[i]? = some l) (h : LoopStep s x i l e t) : t.Bonded a x := by
  obtain ⟨rfl, loops⟩ := S.loops_eq found
  have busy := S.busy loops
  have waits := Session.waits_iff loops
  have silent : l.state.waits = false →
      (cfg.request x).shard = none → .started ∉ s.net.agentResponse x :=
    fun goes => B.silent (by rw [waits, goes]; simp)
  -- the responses after one was read
  have read : ∀ {r rest}, l.state.waits = true → s.net.agentResponse x = r :: rest →
      (cfg.request x).shard = none → .started ∉ rest := by
    intro r rest now queue none mem
    have last := (B.first none (by rw [queue]; exact mem_cons_of_mem _ mem)).2
    rw [queue] at last
    exact last mem
  cases h with
  | noCtx | notReconnected => exact B
  | refused state | shutdown state | confirmed state | cancelShutdown state | lost state =>
    refine .of_over ?_ ?_ (silent (by rw [state]; rfl)) <;>
      simp [State.turned, Session.finishLoop, Session.finish, Session.endLoop, loops]
  | staleShutdown state =>
    refine .of_over ?_ ?_ (silent (by rcases state with state | state <;> rw [state] <;> rfl)) <;>
      simp [State.turned, Session.finishLoop, Session.finish, Session.endLoop, loops]
  | declined state taken =>
    obtain ⟨rest, rfl, -⟩ := Net.takeAgent_perm taken
    refine .of_over ?_ ?_ (silent (by rw [state]; rfl)) <;>
      simp [State.turned, Session.finishLoop, Session.finish, Session.endLoop, loops]
  | failed state taken =>
    obtain ⟨rest, queue, rfl⟩ := takeResponse_cases taken
    refine .of_over ?_ ?_ ?_
    · simp [State.turned, Session.finishLoop, Session.finish, Session.endLoop, loops]
    · simp [State.turned, Session.finishLoop, Session.finish, Session.endLoop]
    · simpa [turned] using read (by rw [state]; rfl) queue
  | @hold b n shard state member taken =>
    have sent : b = a → ((s.turned x
        ({ s.sessions x with agent := some b, status := .waitingForOtherShards }.endLoop 0 l)
        (n.request b ⟨x, l.ctx, true, true⟩) false []).notifyGang shard
          (.release x (by rw [member]; rfl) l.ctx)).Sent a x := by
      rintro rfl
      refine ⟨⟨x, l.ctx, true, true⟩, ?_, rfl, by simp [SessionRequest.isRelease], rfl⟩
      exact mem_requests.mpr (.inl (mem_request.mpr (.inr ⟨rfl, rfl⟩)))
    obtain ⟨rest, rfl, -⟩ := takeAgent_perm taken
    refine .of_idle ?_ ?_ ?_ ?_ fun _ _ => ?_
    · simp [turned, notifyGang, endLoop, loops]
    · simp [turned, notifyGang, endLoop]
    · simp [turned, notifyGang, endLoop]
    · simp only [notifyGang]
      rw [requests_eq]
      exact silent (by rw [state]; rfl)
    · by_cases own : b = a
      · exact .inr (.inr (.inr (.inr (.inl (sent own)))))
      · exact .inl (by simpa [turned, notifyGang, endLoop] using own)
  | @started n state taken =>
    obtain ⟨rest, queue, rfl⟩ := takeResponse_cases taken
    have now : (s.sessions x).Waits := waits.mpr (by rw [state]; rfl)
    have holds : (s.sessions x).agent = some a →
        x ∈ (s.agents a).mySessions ∧ (s.agents a).stopping = false :=
      fun atAgent => B.started now atAgent (by rw [queue]; exact mem_cons_self)
    have none : ¬ ((s.sessions x).updateFromAgentResponse s.now |>.endLoop 0 l).Waits := by
      simp [Session.Waits, endLoop, updateFromAgentResponse, loops]
    simp only [State.Bonded, turned, update_self]
    exact {
      alone := fun waits => absurd waits none
      fresh := fun other => by simp [endLoop, updateFromAgentResponse] at other
      first := fun single mem => absurd mem (read (waits.mp now) queue single)
      running := fun _ atAgent => holds atAgent
      waiting := fun waits => absurd waits none
      started := fun waits => absurd waits none
      lost := fun stopping _ => .inl fun atAgent => by
        rw [(holds atAgent).2] at stopping
        cases stopping }
  | enqueue state | nextCtx state | cancelCtx state | cancelSignal state =>
    refine .of_loop (by simp [turned, setLoop, takeSignal, loops]; rfl)
      ?_ (by simpa [turned, setLoop, takeSignal] using busy)
      (silent (by rw [state]; rfl))
    first | rfl | (rw [state]; rfl)
  | reschedule state =>
    exact .of_loop (by simp [turned, loops]; rfl) rfl
      (by simp [turned, setLoop]) (silent (by rw [state]; rfl))
  | staleTimer state =>
    exact .of_loop (by simp [turned, setLoop, loops]; rfl) rfl
      (by simpa [turned, setLoop] using busy)
      (silent (by rcases state with state | state <;> rw [state] <;> rfl))
  | staleSignal state =>
    simp only [State.Bonded, turned, update_self]
    refine .refresh s.ctxDone loops rfl busy (silent ?_)
    rcases state with state | state <;> rw [state] <;> rfl
  | staleRefresh _ state =>
    have goes : l.state.waits = false := by rcases state with state | state <;> rw [state] <;> rfl
    simp only [State.Bonded, turned, update_self]
    exact .refresh s.ctxDone loops goes busy (silent goes)
  | killStarted state taken | killDone state taken =>
    obtain ⟨rest, queue, rfl⟩ := takeResponse_cases taken
    refine .of_loop (by simp [turned, loops]; rfl) rfl
      (by simpa [turned, setLoop] using busy) ?_
    simpa [turned, requestKill] using read (by rw [state]; rfl) queue
  | @assign b n state alone taken =>
    obtain ⟨rest, rfl, -⟩ := takeAgent_perm taken
    have none := silent (by rw [state]; rfl)
    rw [not_or, not_or] at busy
    simp only [State.Bonded, turned, update_self]
    have sent : b = a → ∃ r ∈ ((({ s.net with agentChan := rest } : Net cfg).request b
        ⟨x, l.ctx, true, false⟩).sessionReq a), r.accept = true ∧ r.isRelease cfg = false ∧
          r.session = x := by
      rintro rfl
      exact ⟨⟨x, l.ctx, true, false⟩, mem_request.mpr (.inr ⟨rfl, rfl⟩), rfl,
        by simp [SessionRequest.isRelease, alone], rfl⟩
    exact {
      alone := fun _ => alone
      fresh := fun other => absurd other busy.1
      first := fun single mem => absurd mem (none single)
      running := fun other => absurd other busy.2.1
      waiting := fun _ atAgent => .inr (.inl (sent (Option.some.inj atAgent)))
      started := fun _ _ mem => absurd mem (none alone)
      lost := fun _ _ => by
        by_cases own : b = a
        · exact .inr (.inr (.inr (.inr (.inl (sent own)))))
        · exact .inl fun atAgent => own (Option.some.inj atAgent) }
  | killSent state =>
    have set : (((s.sessions x).takeSignal l.generation).setLoop 0
        { l with state := .awaitingKill }).loops = [{ l with state := .awaitingKill }] := by
      simp [setLoop, takeSignal, loops]
    simp only [State.Bonded, turned, update_self]
    refine B.of_same rfl rfl ?_ fun _ => by simp [set]
    rw [waits_iff set, waits, state]
    exact ⟨fun _ => rfl, fun _ => rfl⟩
  | reconnected _ mem | reconnectKill _ mem | reconnectedLate _ _ mem =>
    rw [S.reconnect] at mem
    cases mem

namespace State

/-- What agent `a` and session `x` need to know of each other when the agent stops: its last message
is newer than the session's last activity, it does not have a checkpointed session, and a
session that waits for it has a failure to read. -/
def Seen (s : State cfg) (a : AgentPtr) (x : SessionPtr) : Prop :=
  (s.agents a).stopping = false → x ∈ (s.agents a).mySessions → (s.sessions x).agent = some a →
    ((s.sessions x).status = .running →
      (s.sessions x).lastActiveTime < (s.agents a).lastMessageTime) ∧
    (s.sessions x).status ≠ .checkpointed ∧
    ((s.sessions x).Waits → s.net.agentResponse x ≠ [] ∧ .started ∉ s.net.agentResponse x)

/-- Agent `b` tells of a session what it is in a position to tell: that it has started once, when
it was asked to start it and is not stopping, and that it is over only after that. -/
def Reports (s : State cfg) (x : SessionPtr) (b : AgentPtr) (m : AgentUpdateRequest)
    (revoked : Bool) : Prop :=
  AgentInput.OnePart (.update m revoked) ∧
  (x ∈ (s.agents b).mySessions →
    (m.sessionInitResponse = some (cfg.key x, true) → (cfg.request x).shard = none →
      (s.agents b).stopping = false ∧ (s.sessions x).agent = some b ∧ (s.sessions x).Waits ∧
        s.net.agentResponse x = []) ∧
    (m.sessionInitResponse = some (cfg.key x, false) → (cfg.request x).shard = none →
      .started ∉ s.net.agentResponse x) ∧
    ∀ c ∈ m.sessionCompletion, c.key = cfg.key x → revoked = true →
      (s.sessions x).agent = some b ∧ ¬ (s.sessions x).Waits)

/-- The condition on what agent `b` reads, for agent `a` and session `x`. -/
def Faithful (s : State cfg) (a : AgentPtr) (x : SessionPtr) (b : AgentPtr) : AgentInput → Prop
  | .done => b = a → s.Seen a x
  | .update m revoked => s.Reports x b m revoked ∧
      (b = a → AgentInput.Stops (.update m revoked) → s.Seen a x)
  | .sessionReq r => b = a → r.accept = true → r.session ≠ x →
      cfg.key r.session = cfg.key x → x ∉ (s.agents a).mySessions
  | _ => True

end State

lemma Bond.told_other {done : Ctx → Bool} {stopping : Bool} {sent : Prop} (S : (s.sessions x).Sound)
    (B : s.Bonded a x) (other : b ≠ a) (faithful : s.Faithful a x b input)
    (grow : s.Sent a x → sent)
    (T : Told x done (s.sessions x) (s.agents b) input my stopping z responses) :
    Bond cfg a x z (s.net.agentResponse x ++ responses) (x ∈ (s.agents a).mySessions)
      (s.agents a).stopping sent := by
  have kept := Bond.mono B Iff.rfl grow
  cases T with
  | nothing | accepted | displaced => simpa using kept
  | stopped =>
    rw [append_nil, leaves]
    split
    · exact kept.markStale_rule S _ _ (fun _ _ => kept) fun _ _ => kept
    · exact kept
  | refused => exact Bond.fail B _
  | started init mem =>
    have reports := (faithful.1.2 mem).1 init
    by_cases alone : (cfg.request x).shard = none
    · obtain ⟨-, own, waits, none⟩ := reports alone
      have elsewhere : (s.sessions x).agent ≠ some a := by
        rw [own]
        exact fun same => other (Option.some.inj same)
      rw [none, nil_append]
      exact Bond.start_alone B waits fun own => absurd own elsewhere
    · exact kept.start_member alone
  | failed e init mem => exact (kept.fail e).finish _
  | completed => simpa using kept.finish .complete
  | checkpointed completion key mem =>
    obtain ⟨own, goes⟩ := (faithful.1.2 mem).2.2 _ completion key rfl
    rw [append_nil]
    refine kept.checkpoint goes fun _ => ?_
    rw [own]
    exact fun same => other (Option.some.inj same)

lemma Bond.told_own {done : Ctx → Bool} {stopping : Bool} {sent : Prop} (S : (s.sessions x).Sound)
    (B : s.Bonded a x) (faithful : s.Faithful a x a input)
    (grow : s.Sent a x → sent ∨ ∃ r, input = .sessionReq r ∧ r.accept = true ∧ r.session = x)
    (T : Told x done (s.sessions x) (s.agents a) input my stopping z responses) :
    Bond cfg a x z (s.net.agentResponse x ++ responses) (x ∈ my) stopping sent := by
  have kept : (∀ r, input = .sessionReq r → r.accept = true → r.session = x → False) →
      s.Sent a x → sent := by
    intro other now
    refine (grow now).resolve_right ?_
    rintro ⟨r, same, accept, own⟩
    exact other r same accept own
  cases T with
  | nothing other same => simpa using Bond.mono B same (kept other)
  | stopped stops =>
    have seen : s.Seen a x := by
      cases input with
      | done => exact faithful rfl
      | update => exact faithful.2 rfl stops
      | _ => cases stops
    have grow : s.Sent a x → sent := kept fun r same => by rw [same] at stops; cases stops
    rw [append_nil, leaves]
    split
    · next now => exact Bond.stop S B _ _ (seen now.1 now.2)
    · next not =>
      cases alive : (s.agents a).stopping with
      | true => exact alive ▸ Bond.mono B Iff.rfl grow
      | false =>
        have absent : x ∉ (s.agents a).mySessions := fun mem => not ⟨alive, mem⟩
        exact Bond.of_absent B absent absent grow
  | accepted alive _ _ mem => simpa using Bond.hold B mem
  | displaced alive accept other same =>
    have still : x ∈ my ↔ x ∈ (s.agents a).mySessions :=
      same.trans (and_iff_left_of_imp fun mem key => faithful rfl accept other key.symm mem)
    have grow := kept fun r request _ own => by
      cases request
      exact other own
    rw [append_nil, ← alive]
    exact Bond.mono B still grow
  | refused stopping =>
    rw [← stopping]
    exact Bond.fail B _
  | started init mem =>
    by_cases alone : (cfg.request x).shard = none
    · obtain ⟨alive, own, waits, none⟩ := (faithful.1.2 mem).1 init alone
      rw [none, nil_append]
      exact Bond.start_alone B waits fun _ => ⟨mem, alive⟩
    · exact Bond.start_member B alone
  | failed e init mem gone =>
    have told : Bond cfg a x _ _ _ _ sent := Bond.fail B e
    refine told.finish_leave _ fun waits own => ⟨by simp, ?_⟩
    simpa using (faithful.1.2 mem).2.1 init (B.alone waits)
  | completed completion key mem gone =>
    obtain ⟨own, goes⟩ := (faithful.1.2 mem).2.2 _ completion key rfl
    rw [append_nil]
    exact Bond.finish_leave B _ fun waits => absurd waits goes
  | checkpointed completion key mem gone =>
    obtain ⟨own, goes⟩ := (faithful.1.2 mem).2.2 _ completion key rfl
    rw [append_nil]
    exact Bond.checkpoint B goes fun mem => absurd mem gone

/-- The condition on a turn of the sender of agent `a`: a send fails only for a session that has not
started and that nothing else has the key of. -/
def State.Deliverable (s : State cfg) (a : AgentPtr) (x : SessionPtr) : Send → Prop
  | .kill _ => s.Seen a x
  | .session z _ => cfg.key z = cfg.key x → x ∈ (s.agents a).mySessions →
      z = x ∧ (s.sessions x).status ≠ .running ∧ .started ∉ s.net.agentResponse x

/-- The condition for agent `a` and session `x`. -/
def Noticed (a : AgentPtr) (x : SessionPtr) (s : State cfg) (act : Action) : Prop :=
  Steady a s act ∧ Resumed x s act ∧
    match act with
    | .register b z => b = a → z ≠ x → cfg.key z = cfg.key x → x ∉ (s.agents a).mySessions
    | .agent b e => ∀ r ∈ s.net.takeInput b e, s.Faithful a x b r.2
    | .sender b _ false => b = a → ∀ f ∈ (s.net.resChan a).head?, s.Deliverable a x f
    | _ => True

/-- An agent stops only in `Run`, and `Run` returns only when it is stopping. -/
structure Phased (g : Agent cfg) : Prop where
  before : g.phase.started = false → g.stopping = false
  after : g.phase = .returned → g.stopping = true

lemma phased_of_reachable {ok : State cfg → Action → Prop} (h : Reachable step ok .init s)
    (a : AgentPtr) : Phased (s.agents a) := by
  refine view_invariant (I := fun v => Phased v.agent) a ⟨fun _ => rfl, fun now => by cases now⟩
    (fun s act v _ P _ taken => ?_) h
  have before : (s.agents a).phase.started = false → (s.agents a).stopping = false := P.before
  have after : (s.agents a).phase = .returned → (s.agents a).stopping = true := P.after
  cases taken with
  | untouched | scheduler => exact P
  | connect => exact ⟨fun _ => rfl, fun now => by cases now⟩
  | register | recv => exact ⟨before, after⟩
  | start => exact ⟨fun now => (by cases now), fun now => (by cases now)⟩
  | drop phase =>
    exact ⟨fun _ => before (by rw [phase]; rfl), fun now => by cases now⟩
  | @turn e n input _ _ phase =>
    refine ⟨fun now => ?_, fun now => ?_⟩
    · rw [started_settle phase] at now
      cases now
    · simp only [settle] at now ⊢
      split at now
      · next ends => rw [if_pos ends]; exact ends.1
      · rw [phase_handle, phase] at now
        cases now
  | @sender f _ granted sent phase =>
    refine ⟨fun now => ?_, fun now => ?_⟩
    · rw [phase_runSend, phase] at now
      cases now
    · rw [phase_runSend] at now
      exact stopping_runSend a granted sent f (after now)

lemma State.bonded_performAll (responses : n.agentResponse x = s.net.agentResponse x) :
    (({ s with net := n } : State cfg).performAll b r).Bonded a x ↔
      Bond cfg a x (onSessions cfg s.ctxDone x (s.sessions x) r.2)
        (s.net.agentResponse x ++ r.2.filterMap (onResponse x))
        (x ∈ (if b = a then r.1 else s.agents a).mySessions)
        (if b = a then r.1 else s.agents a).stopping
        (({ s with net := n } : State cfg).Sent a x) := by
  obtain ⟨session, response⟩ := sessions_performAll ({ s with net := n } : State cfg) b r x
  have requests := (sameGangs_performAll ({ s with net := n } : State cfg) b r).requests
  have agent : (({ s with net := n } : State cfg).performAll b r).agents a =
      if b = a then r.1 else s.agents a := by
    rw [performAll_agents, update_apply]
    split
    · next same => rw [if_pos same.symm]
    · next other => rw [if_neg fun same => other same.symm]
  unfold State.Bonded State.Sent
  rw [session, response, requests, agent, ← responses]
  rfl

lemma Net.Received.agentResponse (h : n.Received a e m input) :
    m.agentResponse = n.agentResponse := by
  cases h <;> rfl

lemma State.Sent.received (h : s.net.Received b e m input) (sent : s.Sent a x) :
    ({ s with net := m } : State cfg).Sent a x ∨
      b = a ∧ ∃ r, input = .sessionReq r ∧ r.accept = true ∧ r.session = x := by
  obtain ⟨r, mem, accept, first, own⟩ := sent
  cases h with
  | @sessionReq q rest queue =>
    by_cases same : a = b
    · subst same
      rw [queue] at mem
      rcases mem_cons.mp mem with rfl | later
      · exact .inr ⟨rfl, r, rfl, accept, own⟩
      · exact .inl ⟨r, by simpa using later, accept, first, own⟩
    · exact .inl ⟨r, by simpa [update_of_ne same] using mem, accept, first, own⟩
  | _ => exact .inl ⟨r, mem, accept, first, own⟩

lemma bonded_agent (S : (s.sessions x).Sound) (B : s.Bonded a x) (faithful : s.Faithful a x b input)
    (taken : s.net.takeInput b e = some (n, input)) :
    (({ s with net := n } : State cfg).performAll b
      (settle b ((s.agents b).handle b input))).Bonded a x := by
  have received := received taken
  have one : input.OnePart := by
    cases input with
    | update m revoked => exact faithful.1.1
    | _ => trivial
  have told := (s.agents b).told_handle b one x s.ctxDone (s.sessions x)
  obtain ⟨session, responses⟩ := onSessions_settle b ((s.agents b).handle b input) x
    s.ctxDone (s.sessions x)
  rw [bonded_performAll (by rw [received.agentResponse]), session, responses]
  by_cases own : b = a
  · subst own
    rw [if_pos rfl, mySessions_settle, stopping_settle]
    exact Bond.told_own S B faithful (fun sent => (sent.received received).imp_right And.right) told
  · rw [if_neg own]
    refine Bond.told_other S B own faithful (fun sent => ?_) told
    exact (sent.received received).resolve_right fun read => own read.1

def sendErrors (granted sent : Bool) : List AgentError :=
  (if granted then [] else [.grant]) ++ if sent then [] else [.send]

lemma Agent.onSessions_runSend (g : Agent cfg) (b : AgentPtr) (granted sent : Bool)
    (z : SessionPtr) (ctx : Option Ctx) (x : SessionPtr) (done : Ctx → Bool) (y : Session) :
    onSessions cfg done x y (g.runSend b granted sent (.session z ctx)).2 = y ∧
      (g.runSend b granted sent (.session z ctx)).2.filterMap (onResponse x) =
        if z = x then (sendErrors granted sent).map .error else [] := by
  by_cases own : z = x <;> cases granted <;> cases sent <;>
  simp [runSend, sendErrors, onSessions, onSession,
    onResponse, filterMap_cons, own]

lemma bonded_sender {granted sent : Bool} (S : (s.sessions x).Sound) (B : s.Bonded a x)
    (deliverable : sent = false → b = a → s.Deliverable a x f)
    (responses : n.agentResponse = s.net.agentResponse)
    (requests : n.sessionReq = s.net.sessionReq) :
    (({ s with net := n } : State cfg).performAll b
      ((s.agents b).runSend b granted sent f)).Bonded a x := by
  have kept : s.Sent a x → ({ s with net := n } : State cfg).Sent a x := by
    unfold State.Sent
    rw [requests]
    exact id
  have same : Bond cfg a x (s.sessions x) (s.net.agentResponse x) (x ∈ (s.agents a).mySessions)
      (s.agents a).stopping (({ s with net := n } : State cfg).Sent a x) :=
    Bond.mono B Iff.rfl kept
  have agent : (if b = a then s.agents b else s.agents a) = s.agents a := by
    split
    · next same => rw [same]
    · rfl
  rw [bonded_performAll (by rw [responses])]
  cases f with
  | kill k =>
    cases sent with
    | true =>
      simp only [runSend, if_true, agent]
      simpa [onSessions, onSession, onResponse,
        filterMap_cons] using same
    | false =>
      -- the agent stops as it does when its stream ends
      have told : Told x s.ctxDone (s.sessions x) (s.agents b) .done (s.agents b).mySessions true
          ((s.agents b).leaves s.ctxDone x (s.sessions x)) [] := .stopped trivial
      have seen : s.Faithful a x b .done := fun own => deliverable rfl own
      obtain ⟨session, silent⟩ := (s.agents b).onSessions_stop s.ctxDone x (s.sessions x)
      simp only [runSend, Bool.false_eq_true, if_false, session, silent]
      by_cases own : b = a
      · subst own
        rw [if_pos rfl, mySessions_stop, stopping_stop]
        exact Bond.told_own S B seen (fun now => .inl (kept now)) told
      · rw [if_neg own]
        exact Bond.told_other S B own seen kept told
  | session z ctx =>
    obtain ⟨session, errors⟩ := (s.agents b).onSessions_runSend b granted sent z ctx x s.ctxDone
      (s.sessions x)
    have told : Bond cfg a x (s.sessions x)
        (s.net.agentResponse x ++ if z = x then (sendErrors granted sent).map .error else [])
        (x ∈ (s.agents a).mySessions) (s.agents a).stopping
        (({ s with net := n } : State cfg).Sent a x) := by
      split
      · exact same.fails _
      · simpa using same
    rw [session, errors]
    cases sent with
    | true => simpa only [runSend, if_true, agent] using told
    | false =>
      by_cases own : b = a
      · subst own
        simp only
        by_cases drops : cfg.key z = cfg.key x ∧ x ∈ (s.agents b).mySessions
        · obtain ⟨rfl, waits, none⟩ := deliverable rfl rfl drops.1 drops.2
          refine told.leave (fun now => absurd now waits) (fun _ _ => ⟨?_, ?_⟩) fun mem => ?_
          · cases granted <;> simp [sendErrors]
          · cases granted <;> simpa using none
          · exact absurd rfl (Keyed.mem_erase.mp mem).2
        · refine told.mono (Keyed.mem_erase.trans (and_iff_left_of_imp ?_)) id
          exact fun mem key => drops ⟨key.symm, mem⟩
      · simpa only [if_neg own] using told

lemma LoopStep.agentResponse_of_ne {e : LoopEvent} (h : LoopStep s z i l e t) (other : x ≠ z) :
    t.net.agentResponse x = s.net.agentResponse x := by
  cases h with
  | assign _ _ taken | declined _ taken =>
    obtain ⟨rest, rfl, -⟩ := takeAgent_perm taken
    rfl
  | hold _ _ taken =>
    obtain ⟨rest, rfl, -⟩ := takeAgent_perm taken
    simp only [notifyGang]
    rw [requests_eq]
    rfl
  | failed _ taken | started _ taken | killDone _ taken | killStarted _ taken =>
    obtain ⟨rest, -, rfl⟩ := takeResponse_cases taken
    exact update_of_ne other _ _
  | _ => rfl

lemma Bond.schedule (S : (s.sessions x).Sound) (B : s.Bonded a x)
    (resumed : Resumed x s (.schedule x ctx)) :
    Bond cfg a x ((s.sessions x).schedule ctx) (s.net.agentResponse x)
      (x ∈ (s.agents a).mySessions) (s.agents a).stopping (s.Sent a x) := by
  refine Session.schedule_rule (I := fun y => Bond cfg a x y _ _ _ _) B
    (fun _ _ => B.of_loops_eq rfl rfl rfl) fun starts c rest => ?_
  have loops : (s.sessions x).loops = [] := starts.elim (resumed rfl) fun fresh => S.idle (.inl fresh)
  exact .of_loop (by simp [loops]; rfl) rfl (by simp [start])
    (B.silent (by simp [Session.Waits, loops]))

lemma bonded_register (phased : Phased (s.agents a)) (B : s.Bonded a x)
    (noticed : b = a → z ≠ x → cfg.key z = cfg.key x → x ∉ (s.agents a).mySessions)
    (phase : (s.agents b).phase = .registering) (unused : s.Unused z) :
    (s.registered b z).Bonded a x := by
  unfold State.Bonded registered
  by_cases own : b = a
  · subst own
    have alive := phased.before (by rw [phase]; rfl)
    simp only [update_self, alive]
    by_cases new : x = z
    · subst new
      refine ⟨?_, ?_, ?_, ?_, ?_, ?_, ?_⟩ <;> simp [Session.Waits, unused.2]
    · rw [update_of_ne new]
      have same : x ∈ (s.agents b).mySessions.insert z ↔ x ∈ (s.agents b).mySessions := by
        rw [Keyed.mem_insert, or_iff_right new]
        exact and_iff_left_of_imp fun mem key => noticed rfl (Ne.symm new) key.symm mem
      rw [← alive]
      exact Bond.mono B same id
  · simp only [update_of_ne (Ne.symm own)]
    by_cases new : x = z
    · subst new
      refine ⟨?_, ?_, ?_, ?_, ?_, ?_, ?_⟩ <;> simp [Session.Waits, unused.2, own, Settled]
    · rw [update_of_ne new]
      exact B

lemma Bond.step (S : (s.sessions x).Sound) (blank : (s.view a).Blank) (phased : Phased (s.agents a))
    (B : s.Bonded a x) (noticed : Noticed a x s act) (h : Step s act t) : t.Bonded a x := by
  obtain ⟨-, resumed, noticed⟩ := noticed
  -- steps that change the state of an agent and not what the bond reads of it
  have modified : ∀ (b : AgentPtr) (g : Agent cfg),
      (b = a → (x ∈ g.mySessions ↔ x ∈ (s.agents a).mySessions) ∧
        g.stopping = (s.agents a).stopping) →
      Bond cfg a x (s.sessions x) (s.net.agentResponse x)
        (x ∈ (Function.update s.agents b g a).mySessions)
        (Function.update s.agents b g a).stopping (s.Sent a x) := by
    intro b g same
    rw [update_apply]
    split
    · next own =>
      obtain ⟨held, stopping⟩ := same own.symm
      rw [stopping]
      exact Bond.mono B held id
    · exact B
  cases h with
  | @addSession z unused =>
    unfold State.Bonded newSession
    by_cases new : x = z
    · subst new
      simp only [update_self]
      exact .of_idle rfl (by simp) (fun _ => rfl) (by simp [unused.2]) fun _ _ => .inl (by simp)
    · simp only [update_of_ne new]
      exact B
  | @schedule z ctx =>
    unfold State.Bonded turned
    by_cases own : x = z
    · subst own
      simp only [update_self]
      exact Bond.schedule S B resumed
    · simp only [update_of_ne own]
      exact B
  | killRunning =>
    unfold State.Bonded turned
    simp only [update_eq_self]
    exact B
  | @killSignal z =>
    unfold State.Bonded turned
    by_cases own : x = z
    · subst own
      simp only [update_self]
      unfold signal
      split
      · exact B
      · exact Bond.of_loops_eq B rfl rfl rfl
    · simp only [update_of_ne own]
      exact B
  | @connect b fresh =>
    refine modified b _ fun own => ?_
    subst own
    rw [blank.agent fresh]
    exact ⟨Iff.rfl, rfl⟩
  | register phase unused => exact bonded_register phased B noticed phase unused
  | @startAgent b phase =>
    refine (bonded_performAll rfl).mpr ?_
    have agent := modified b (s.agents b).launched fun own => by subst own; exact ⟨Iff.rfl, rfl⟩
    rw [update_apply] at agent
    by_cases idle : (s.agents b).mySessions.size = 0 <;>
    simpa [onSessions, onSession, onResponse,
      filterMap_cons, idle, launched, eq_comm] using agent
  | @dropAgent b phase => exact modified b _ fun own => by subst own; exact ⟨Iff.rfl, rfl⟩
  | @recv b m phase => exact modified b _ fun own => by subst own; exact ⟨Iff.rfl, rfl⟩
  | agent phase taken => exact bonded_agent S B (noticed _ taken) taken
  | @sender b f rest granted sent phase queue =>
    refine bonded_sender S B (fun fails own => ?_) rfl rfl
    subst fails own
    exact noticed rfl f (by rw [queue]; rfl)
  | @loop z i l e _ found taken =>
    by_cases own : x = z
    · subst own
      exact Bond.looped S B found taken
    · unfold State.Bonded
      rw [taken.sessions_of_ne own, taken.agentResponse_of_ne own, (sameOffers_loopStep taken).1]
      refine Bond.mono B Iff.rfl fun sent => ?_
      obtain ⟨r, mem, rest⟩ := sent
      rcases requests_of_step (.loop found taken) a with kept | ⟨_, _, other, -⟩
      · exact ⟨r, kept r mem, rest⟩
      · cases other
  | _ =>
    exact B

lemma bonded_of_reachable (h : Reachable step (Noticed a x) .init s) : s.Bonded a x :=
  Reachable.invariant_of (K := fun s : State cfg => (s.sessions x).Sound ∧ (s.view a).Blank ∧
      Phased (s.agents a)) (I := fun s : State cfg => s.Bonded a x)
    (fun _ before => ⟨sound_of_reachable (fun _ _ noticed => noticed.2.1) before,
      blank_of_reachable before a, phased_of_reachable before a⟩)
    (.of_idle rfl (by simp [init]) (fun _ => rfl) (fun _ mem => by cases mem)
      fun now => by cases now)
    (fun _ _ _ K B noticed taken => Bond.step K.1 K.2.1 K.2.2 B noticed (step_cases taken).2) h

instance (s : State cfg) (a : AgentPtr) (x : SessionPtr) : Decidable (s.Seen a x) :=
  inferInstanceAs (Decidable (_ → _ → _ → _))

instance (s : State cfg) (x : SessionPtr) (b : AgentPtr) (m : AgentUpdateRequest)
    (revoked : Bool) : Decidable (s.Reports x b m revoked) :=
  inferInstanceAs (Decidable (_ ∧ (_ → (_ → _ → _) ∧ (_ → _ → _) ∧ ∀ c ∈ m.sessionCompletion, _)))

instance (s : State cfg) (a : AgentPtr) (x : SessionPtr) (b : AgentPtr) (input : AgentInput) :
    Decidable (s.Faithful a x b input) := by
  induction input using AgentInput.casesOn <;> unfold State.Faithful <;> infer_instance

instance (s : State cfg) (a : AgentPtr) (x : SessionPtr) (f : Send) :
    Decidable (s.Deliverable a x f) := by
  induction f using Send.casesOn <;> unfold State.Deliverable <;> infer_instance

instance (a : AgentPtr) (x : SessionPtr) (s : State cfg) (act : Action) :
    Decidable (Noticed a x s act) := by
  induction act using Action.casesOn with
  | sender b granted sent => induction sent using Bool.casesOn <;> unfold Noticed <;> infer_instance
  | _ => unfold Noticed; infer_instance

end Velda.Broker
