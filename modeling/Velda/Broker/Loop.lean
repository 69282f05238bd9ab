import Velda.Broker.Agent

/-! The turns of `Session.scheduleLoop`. In each state the loop waits in a `select`;
a turn takes one of its branches. -/
namespace Velda.Broker
open Lib State

variable {cfg : Config}

/-- The branches of the `select` statements; `quota` and `expire` are the turns of the two
states that do not wait. -/
inductive LoopEvent
  | quota (granted : Bool)
  | ctxDone
  | cancelSignal
  | serverDone
  | agent
  | response
  | cancelConfirm
  | staleConnectionRequest
  | staleTimer
  | staleReconnect
  | expire
  deriving DecidableEq

def Net.takeAgent (n : Net cfg) (x : SessionPtr) : Option (AgentPtr × Net cfg) :=
  (n.agentChan.find? (·.1 = x)).map fun m => (m.2, { n with agentChan := n.agentChan.erase m })

def Net.takeResponse (n : Net cfg) (x : SessionPtr) : Option (AgentSessionResponse × Net cfg) :=
  match n.agentResponse x with
  | [] => none
  | r :: rest => some (r, { n with agentResponse := Function.update n.agentResponse x rest })

def Session.finishLoop (y : Session) (i : Nat) (l : Loop) (e : Option SchedulingError)
    (final : FinalState) : Session :=
  ({ y with schedulingErr := e }.finish final).endLoop i l

namespace State

def loopCreated (s : State cfg) (x : SessionPtr) (i : Nat) (l : Loop) : LoopEvent → Option (State cfg)
  | .quota false =>
    some (s.turned x ((s.sessions x).finishLoop i l (some .quota) .noQuota) s.net true
      [.recordExecution x .noQuota])
  | .quota true =>
    some (s.turned x ((s.sessions x).setLoop i { l with state := .queueing }) (s.net.addSession x)
      false (if cfg.batched x then [] else [.requestWorker x]))
  | _ => none

/-- The loop got an agent: a gang member holds it and waits, others are sent to it. -/
def assign (s : State cfg) (x : SessionPtr) (i : Nat) (l : Loop) (a : AgentPtr) (n : Net cfg) :
    State cfg :=
  match h : (cfg.request x).shard with
  | some shard =>
    (s.turned x
      ({ s.sessions x with agent := some a, status := .waitingForOtherShards }.endLoop i l)
      (n.request a ⟨x, l.ctx, true, true⟩) false []).notifyGang shard
        (.release x (by rw [h]; rfl) l.ctx)
  | none =>
    s.turned x ({ s.sessions x with agent := some a }.setLoop i { l with state := .sentToAgent })
      (n.request a ⟨x, l.ctx, true, false⟩) false []

def loopQueueing (s : State cfg) (x : SessionPtr) (i : Nat) (l : Loop) :
    LoopEvent → Option (State cfg)
  | .ctxDone =>
    match l.ctx with
    | none => some { s with crashed := true }
    | some c =>
      if s.ctxDone c then
        match (s.sessions x).scheduleCtx with
        | next :: rest =>
          some (s.turned x
            ({ s.sessions x with scheduleCtx := rest }.setLoop i { l with ctx := some next }) s.net
            false [])
        | [] =>
          some (s.turned x
            ({ s.sessions x with schedulingErr := some .allContextsCancelled }.setLoop i
              { l with state := .cancelling, ctx := none }) (s.net.removeSession x) false [])
      else none
  | .cancelSignal =>
    if l.generation ∈ (s.sessions x).cancelSignal then
      some (s.turned x
        ({ (s.sessions x).takeSignal l.generation with schedulingErr := some .killed }.setLoop i
          { l with state := .cancelling }) (s.net.removeSession x) false [])
    else none
  | .serverDone =>
    if s.serverDone then
      some (s.turned x ((s.sessions x).finishLoop i l (some .serverShutdown) .cancelled) s.net true
        [.recordExecution x .cancelled])
    else none
  | .agent => (s.net.takeAgent x).map fun (a, n) => s.assign x i l a n
  | _ => none

def loopSentToAgent (s : State cfg) (x : SessionPtr) (i : Nat) (l : Loop) :
    LoopEvent → Option (State cfg)
  | .cancelSignal =>
    if l.generation ∈ (s.sessions x).cancelSignal then
      some (s.turned x
        (((s.sessions x).takeSignal l.generation).setLoop i { l with state := .awaitingKill })
        s.net false [])
    else none
  | .response =>
    (s.net.takeResponse x).map fun (r, n) =>
      match r with
      | .error e =>
        s.turned x ((s.sessions x).finishLoop i l (some (.agent e)) .startupFailure) n true
          [.recordExecution x .startupFailure]
      | .started =>
        s.turned x (((s.sessions x).updateFromAgentResponse s.now).endLoop i l) n false []
  | _ => none

/-- After a kill: an agent that started the session is asked to kill it. -/
def loopAwaitingKill (s : State cfg) (x : SessionPtr) (i : Nat) (l : Loop) :
    LoopEvent → Option (State cfg)
  | .response =>
    (s.net.takeResponse x).map fun (r, n) =>
      let y := { s.sessions x with schedulingErr := some .killed }.setLoop i
        { l with state := .cancelling }
      match r, s.heldBy x with
      | .started, some a =>
        s.turned x y (n.requestKill a ⟨cfg.key x, false⟩) false [.requestKill a ⟨cfg.key x, false⟩]
      | _, _ => s.turned x y n false []
  | _ => none

def cancelled (s : State cfg) (x : SessionPtr) (i : Nat) (l : Loop) (n : Net cfg) : State cfg :=
  s.turned x ((s.sessions x).finishLoop i l (s.sessions x).schedulingErr .cancelled) n true
    [.recordExecution x .cancelled, .requestCancelled x]

def loopCancelling (s : State cfg) (x : SessionPtr) (i : Nat) (l : Loop) :
    LoopEvent → Option (State cfg)
  | .cancelConfirm =>
    if s.net.sessionConfirm x = 0 then none
    else some (s.cancelled x i l { s.net with
      sessionConfirm := Function.update s.net.sessionConfirm x (s.net.sessionConfirm x - 1) })
  | .serverDone => if s.serverDone then some (s.cancelled x i l s.net) else none
  | .agent =>
    (s.net.takeAgent x).map fun (a, n) => s.cancelled x i l (n.request a ⟨x, none, false, false⟩)
  | _ => none

/-- The loops of a stale session, before and after a kill signal. -/
def loopStale (s : State cfg) (x : SessionPtr) (i : Nat) (l : Loop) :
    LoopEvent → Option (State cfg)
  | .cancelSignal =>
    if l.generation ∈ (s.sessions x).cancelSignal then
      some (s.turned x
        ({ (s.sessions x).takeSignal l.generation with schedulingErr := some .killed }.refresh
          s.ctxDone i { l with state := .staleCancelled }) s.net false [])
    else none
  | .ctxDone =>
    if l.ctx.any s.ctxDone then
      some (s.turned x ((s.sessions x).refresh s.ctxDone i l) s.net false [])
    else none
  | .serverDone =>
    if s.serverDone then
      some (s.turned x ((s.sessions x).finishLoop i l (some .serverShutdown) .workerLost) s.net
        true [.recordExecution x .workerLost])
    else none
  | .staleConnectionRequest =>
    if l.ctx = none ∧ (s.sessions x).scheduleCtx ≠ [] then
      some (s.turned x ((s.sessions x).refresh s.ctxDone i l) s.net false [])
    else none
  | .staleTimer =>
    if l.generation ∈ (s.sessions x).staleReconnect then none
    else some (s.turned x ((s.sessions x).setLoop i { l with state := .staleTimerExpired }) s.net
      false [])
  | .staleReconnect =>
    if l.generation ∈ (s.sessions x).staleReconnect then
      some <| match l.state, s.heldBy x with
        | .staleCancelled, some a =>
          s.turned x ((s.sessions x).endLoop i l) (s.net.requestKill a ⟨cfg.key x, false⟩) false
            [.requestKill a ⟨cfg.key x, false⟩]
        | _, _ => s.turned x ((s.sessions x).endLoop i l) s.net false []
    else none
  | _ => none

def loopStaleTimerExpired (s : State cfg) (x : SessionPtr) (i : Nat) (l : Loop) :
    LoopEvent → Option (State cfg)
  | .expire =>
    some <|
      if (s.sessions x).status = .running then
        if l.generation ∈ (s.sessions x).staleReconnect then
          s.turned x ((s.sessions x).endLoop i l) s.net false []
        else { s with crashed := true }
      else
        match l.ctx with
        | none =>
          s.turned x ((s.sessions x).finishLoop i l (s.sessions x).schedulingErr .workerLost) s.net
            true (((s.sessions x).agent.map (.revokeAccess · x)).toList ++
              [.recordExecution x .workerLost])
        | some _ =>
          s.turned x
            ({ s.sessions x with status := .queueing }.setLoop i { l with state := .created })
            s.net false []
  | _ => none

def loopTurn (s : State cfg) (x : SessionPtr) (i : Nat) (e : LoopEvent) : Option (State cfg) :=
  match (s.sessions x).loops[i]? with
  | none => none
  | some l =>
    match l.state with
    | .created => s.loopCreated x i l e
    | .queueing => s.loopQueueing x i l e
    | .sentToAgent => s.loopSentToAgent x i l e
    | .awaitingKill => s.loopAwaitingKill x i l e
    | .cancelling => s.loopCancelling x i l e
    | .stale | .staleCancelled => s.loopStale x i l e
    | .staleTimerExpired => s.loopStaleTimerExpired x i l e

end State

/-- The outcomes of a turn of a loop `l`, one constructor for each branch. -/
inductive LoopStep (s : State cfg) (x : SessionPtr) (i : Nat) (l : Loop) :
    LoopEvent → State cfg → Prop
  | refused : l.state = .created →
      LoopStep s x i l (.quota false) (s.turned x
        ((s.sessions x).finishLoop i l (some .quota) .noQuota) s.net true
        [.recordExecution x .noQuota])
  | enqueue : l.state = .created →
      LoopStep s x i l (.quota true) (s.turned x
        ((s.sessions x).setLoop i { l with state := .queueing }) (s.net.addSession x) false
        (if cfg.batched x then [] else [.requestWorker x]))
  | noCtx : l.state = .queueing → l.ctx = none →
      LoopStep s x i l .ctxDone { s with crashed := true }
  | nextCtx {next : Ctx} {rest : List Ctx} : l.state = .queueing →
      (s.sessions x).scheduleCtx = next :: rest →
      LoopStep s x i l .ctxDone (s.turned x
        ({ s.sessions x with scheduleCtx := rest }.setLoop i { l with ctx := some next }) s.net
        false [])
  | cancelCtx : l.state = .queueing → (s.sessions x).scheduleCtx = [] →
      LoopStep s x i l .ctxDone (s.turned x
        ({ s.sessions x with schedulingErr := some .allContextsCancelled }.setLoop i
          { l with state := .cancelling, ctx := none }) (s.net.removeSession x) false [])
  | cancelSignal : l.state = .queueing → l.generation ∈ (s.sessions x).cancelSignal →
      LoopStep s x i l .cancelSignal (s.turned x
        ({ (s.sessions x).takeSignal l.generation with schedulingErr := some .killed }.setLoop i
          { l with state := .cancelling }) (s.net.removeSession x) false [])
  | shutdown : l.state = .queueing → s.serverDone = true →
      LoopStep s x i l .serverDone (s.turned x
        ((s.sessions x).finishLoop i l (some .serverShutdown) .cancelled) s.net true
        [.recordExecution x .cancelled])
  | assign {a : AgentPtr} {n : Net cfg} : l.state = .queueing →
      (cfg.request x).shard = none → s.net.takeAgent x = some (a, n) →
      LoopStep s x i l .agent (s.turned x
        ({ s.sessions x with agent := some a }.setLoop i { l with state := .sentToAgent })
        (n.request a ⟨x, l.ctx, true, false⟩) false [])
  | hold {a : AgentPtr} {n : Net cfg} {shard : Shard} : l.state = .queueing →
      (member : (cfg.request x).shard = some shard) → s.net.takeAgent x = some (a, n) →
      LoopStep s x i l .agent ((s.turned x
        ({ s.sessions x with agent := some a, status := .waitingForOtherShards }.endLoop i l)
        (n.request a ⟨x, l.ctx, true, true⟩) false []).notifyGang shard
          (.release x (by rw [member]; rfl) l.ctx))
  | killSent : l.state = .sentToAgent → l.generation ∈ (s.sessions x).cancelSignal →
      LoopStep s x i l .cancelSignal (s.turned x
        (((s.sessions x).takeSignal l.generation).setLoop i { l with state := .awaitingKill })
        s.net false [])
  | failed {e : AgentError} {n : Net cfg} : l.state = .sentToAgent →
      s.net.takeResponse x = some (.error e, n) →
      LoopStep s x i l .response (s.turned x
        ((s.sessions x).finishLoop i l (some (.agent e)) .startupFailure) n true
        [.recordExecution x .startupFailure])
  | started {n : Net cfg} : l.state = .sentToAgent → s.net.takeResponse x = some (.started, n) →
      LoopStep s x i l .response (s.turned x
        (((s.sessions x).updateFromAgentResponse s.now).endLoop i l) n false [])
  | killStarted {a : AgentPtr} {n : Net cfg} : l.state = .awaitingKill →
      s.net.takeResponse x = some (.started, n) → s.heldBy x = some a →
      LoopStep s x i l .response (s.turned x
        ({ s.sessions x with schedulingErr := some .killed }.setLoop i
          { l with state := .cancelling }) (n.requestKill a ⟨cfg.key x, false⟩) false
        [.requestKill a ⟨cfg.key x, false⟩])
  | killDone {r : AgentSessionResponse} {n : Net cfg} : l.state = .awaitingKill →
      s.net.takeResponse x = some (r, n) → (r = .started → s.heldBy x = none) →
      LoopStep s x i l .response (s.turned x
        ({ s.sessions x with schedulingErr := some .killed }.setLoop i
          { l with state := .cancelling }) n false [])
  | confirmed : l.state = .cancelling → s.net.sessionConfirm x ≠ 0 →
      LoopStep s x i l .cancelConfirm (s.turned x
        ((s.sessions x).finishLoop i l (s.sessions x).schedulingErr .cancelled)
        { s.net with
          sessionConfirm := Function.update s.net.sessionConfirm x (s.net.sessionConfirm x - 1) }
        true [.recordExecution x .cancelled, .requestCancelled x])
  | cancelShutdown : l.state = .cancelling → s.serverDone = true →
      LoopStep s x i l .serverDone (s.turned x
        ((s.sessions x).finishLoop i l (s.sessions x).schedulingErr .cancelled) s.net true
        [.recordExecution x .cancelled, .requestCancelled x])
  | declined {a : AgentPtr} {n : Net cfg} : l.state = .cancelling →
      s.net.takeAgent x = some (a, n) →
      LoopStep s x i l .agent (s.turned x
        ((s.sessions x).finishLoop i l (s.sessions x).schedulingErr .cancelled)
        (n.request a ⟨x, none, false, false⟩) true
        [.recordExecution x .cancelled, .requestCancelled x])
  | staleSignal : l.state = .stale ∨ l.state = .staleCancelled →
      l.generation ∈ (s.sessions x).cancelSignal →
      LoopStep s x i l .cancelSignal (s.turned x
        ({ (s.sessions x).takeSignal l.generation with schedulingErr := some .killed }.refresh
          s.ctxDone i { l with state := .staleCancelled }) s.net false [])
  | staleRefresh {e : LoopEvent} : e = .ctxDone ∨ e = .staleConnectionRequest →
      l.state = .stale ∨ l.state = .staleCancelled →
      LoopStep s x i l e (s.turned x ((s.sessions x).refresh s.ctxDone i l) s.net false [])
  | staleShutdown : l.state = .stale ∨ l.state = .staleCancelled → s.serverDone = true →
      LoopStep s x i l .serverDone (s.turned x
        ((s.sessions x).finishLoop i l (some .serverShutdown) .workerLost) s.net true
        [.recordExecution x .workerLost])
  | staleTimer : l.state = .stale ∨ l.state = .staleCancelled →
      l.generation ∉ (s.sessions x).staleReconnect →
      LoopStep s x i l .staleTimer (s.turned x
        ((s.sessions x).setLoop i { l with state := .staleTimerExpired }) s.net false [])
  | reconnected : l.state = .stale ∨ l.state = .staleCancelled →
      l.generation ∈ (s.sessions x).staleReconnect →
      (l.state = .staleCancelled → s.heldBy x = none) →
      LoopStep s x i l .staleReconnect (s.turned x ((s.sessions x).endLoop i l) s.net false [])
  | reconnectKill {a : AgentPtr} : l.state = .staleCancelled →
      l.generation ∈ (s.sessions x).staleReconnect → s.heldBy x = some a →
      LoopStep s x i l .staleReconnect (s.turned x ((s.sessions x).endLoop i l)
        (s.net.requestKill a ⟨cfg.key x, false⟩) false [.requestKill a ⟨cfg.key x, false⟩])
  | reconnectedLate : l.state = .staleTimerExpired → (s.sessions x).status = .running →
      l.generation ∈ (s.sessions x).staleReconnect →
      LoopStep s x i l .expire (s.turned x ((s.sessions x).endLoop i l) s.net false [])
  | notReconnected : l.state = .staleTimerExpired → (s.sessions x).status = .running →
      LoopStep s x i l .expire { s with crashed := true }
  | lost : l.state = .staleTimerExpired → (s.sessions x).status ≠ .running → l.ctx = none →
      LoopStep s x i l .expire (s.turned x
        ((s.sessions x).finishLoop i l (s.sessions x).schedulingErr .workerLost) s.net true
        (((s.sessions x).agent.map (.revokeAccess · x)).toList ++
          [.recordExecution x .workerLost]))
  | reschedule {c : Ctx} : l.state = .staleTimerExpired → (s.sessions x).status ≠ .running →
      l.ctx = some c →
      LoopStep s x i l .expire (s.turned x
        ({ s.sessions x with status := .queueing }.setLoop i { l with state := .created }) s.net
        false [])

variable {s t : State cfg} {x : SessionPtr} {i : Nat} {e : LoopEvent} {l : Loop}

lemma loopStep_created (state : l.state = .created) (h : s.loopCreated x i l e = some t) :
    LoopStep s x i l e t := by
  unfold loopCreated at h
  split at h
  · cases h
    exact .refused state
  · cases h
    exact .enqueue state
  · cases h

lemma loopStep_queueing (state : l.state = .queueing) (h : s.loopQueueing x i l e = some t) :
    LoopStep s x i l e t := by
  unfold loopQueueing at h
  split at h
  · split at h
    · next none =>
      cases h
      exact .noCtx state none
    · split at h
      · split at h
        · next ctxs =>
          cases h
          exact .nextCtx state ctxs
        · next ctxs =>
          cases h
          exact .cancelCtx state ctxs
      · cases h
  · split at h
    · next signal =>
      cases h
      exact .cancelSignal state signal
    · cases h
  · split at h
    · next done =>
      cases h
      exact .shutdown state done
    · cases h
  · obtain ⟨⟨a, n⟩, taken, rfl⟩ := Option.map_eq_some_iff.mp h
    simp only [assign]
    split
    · next member => exact .hold state member taken
    · next alone => exact .assign state alone taken
  · cases h

lemma loopStep_sentToAgent (state : l.state = .sentToAgent)
    (h : s.loopSentToAgent x i l e = some t) : LoopStep s x i l e t := by
  unfold loopSentToAgent at h
  split at h
  · split at h
    · next signal =>
      cases h
      exact .killSent state signal
    · cases h
  · obtain ⟨⟨r, n⟩, taken, rfl⟩ := Option.map_eq_some_iff.mp h
    cases r with
    | started => exact .started state taken
    | error e => exact .failed state taken
  · cases h

lemma loopStep_awaitingKill (state : l.state = .awaitingKill)
    (h : s.loopAwaitingKill x i l e = some t) : LoopStep s x i l e t := by
  unfold loopAwaitingKill at h
  split at h
  · obtain ⟨⟨r, n⟩, taken, rfl⟩ := Option.map_eq_some_iff.mp h
    cases r with
    | error e => exact .killDone state taken (fun started => by cases started)
    | started =>
      cases held : s.heldBy x with
      | none => exact .killDone state taken fun _ => held
      | some a => exact .killStarted state taken held
  · cases h

lemma loopStep_cancelling (state : l.state = .cancelling) (h : s.loopCancelling x i l e = some t) :
    LoopStep s x i l e t := by
  unfold loopCancelling at h
  split at h
  · split at h
    · cases h
    · next some =>
      cases h
      exact .confirmed state some
  · split at h
    · next done =>
      cases h
      exact .cancelShutdown state done
    · cases h
  · obtain ⟨⟨a, n⟩, taken, rfl⟩ := Option.map_eq_some_iff.mp h
    exact .declined state taken
  · cases h

lemma loopStep_stale (state : l.state = .stale ∨ l.state = .staleCancelled)
    (h : s.loopStale x i l e = some t) : LoopStep s x i l e t := by
  unfold loopStale at h
  split at h
  · split at h
    · next signal =>
      cases h
      exact .staleSignal state signal
    · cases h
  · split at h
    · cases h
      exact .staleRefresh (.inl rfl) state
    · cases h
  · split at h
    · next done =>
      cases h
      exact .staleShutdown state done
    · cases h
  · split at h
    · cases h
      exact .staleRefresh (.inr rfl) state
    · cases h
  · split at h
    · cases h
    · next running =>
      cases h
      exact .staleTimer state running
  · split at h
    · next reconnected =>
      cases h
      split
      · next cancelled held => exact .reconnectKill cancelled reconnected held
      · next other =>
        refine .reconnected state reconnected fun cancelled => ?_
        cases held : s.heldBy x with
        | none => rfl
        | some a => exact absurd held (other a cancelled)
    · cases h
  · cases h

lemma loopStep_staleTimerExpired (state : l.state = .staleTimerExpired)
    (h : s.loopStaleTimerExpired x i l e = some t) : LoopStep s x i l e t := by
  unfold loopStaleTimerExpired at h
  split at h
  · simp only [Option.some.injEq] at h
    subst h
    split
    · next running =>
      split
      · next reconnected => exact .reconnectedLate state running reconnected
      · exact .notReconnected state running
    · next notRunning =>
      split
      · next none => exact .lost state notRunning none
      · next c ctx => exact .reschedule state notRunning ctx
  · cases h

lemma loopStep_of_turn (h : s.loopTurn x i e = some t) :
    ∃ l, (s.sessions x).loops[i]? = some l ∧ LoopStep s x i l e t := by
  unfold loopTurn at h
  split at h
  · cases h
  · next l found =>
    refine ⟨l, found, ?_⟩
    split at h
    · next state => exact loopStep_created state h
    · next state => exact loopStep_queueing state h
    · next state => exact loopStep_sentToAgent state h
    · next state => exact loopStep_awaitingKill state h
    · next state => exact loopStep_cancelling state h
    · next state => exact loopStep_stale (.inl state) h
    · next state => exact loopStep_stale (.inr state) h
    · next state => exact loopStep_staleTimerExpired state h

end Velda.Broker
