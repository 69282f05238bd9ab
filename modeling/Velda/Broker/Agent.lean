import Velda.Broker.Session

/-! `pkg/broker/agent.go`: the turns of `Agent.Run` and of the goroutine that writes to
its stream. A turn changes the agent and gives the list of what it does to others.
`Run` returns at the end of a turn that leaves it stopping and not receiving. -/
namespace Velda.Broker
open Lib

variable {cfg : Config}

/-- What an agent does to the scheduler, to sessions, to its sender and to the pool. -/
inductive AgentOutput
  | addAgent
  | removeAgent
  | respond (x : SessionPtr) (r : AgentSessionResponse)
  | complete (x : SessionPtr) (final : FinalState)
  | checkpointed (x : SessionPtr)
  | markStale (l : List SessionPtr) (lastMessageTime : Time)
  | send (f : Send)
  | log (e : Event)
  | crash
  deriving DecidableEq

/-- The branches of the `select` of `Agent.Run` with what was received; `done` is the end of
the stream, of its context, or of the server. -/
inductive AgentInput
  | done
  | update (m : AgentUpdateRequest) (revoked : Bool)
  | cancelConfirm
  | shutdown
  | kill (k : KillRequest)
  | sessionReq (r : SessionRequest)
  deriving DecidableEq

namespace Agent

def freeSlots (g : Agent cfg) (a : AgentPtr) : Int := (cfg.slots a : Int) - g.mySessions.size

def stop (g : Agent cfg) : Agent cfg × List AgentOutput :=
  if g.stopping then (g, [])
  else
    ({ g with stopping := true },
      (if g.receiving then [.removeAgent] else []) ++
        [.markStale g.mySessions.entries g.lastMessageTime])

def rejoin (g : Agent cfg) (k : SessionKey) : Agent cfg :=
  { g with mySessions := g.mySessions.erase k, receiving := true }

def handleSessionInitResponse (g : Agent cfg) (a : AgentPtr) (k : SessionKey) (success : Bool) :
    Agent cfg × List AgentOutput :=
  match g.mySessions.lookup k with
  | none => (g, [])
  | some x =>
    if success then (g, [.respond x .started])
    else
      (g.rejoin k,
        [.respond x (.error (.failedToStart (cfg.agentId a))), .complete x .startupFailure,
          .log (.revokeAccess a x), .addAgent, .log (.markIdle a ((g.rejoin k).freeSlots a))])

/-- The last component is false when the revocation fails. -/
def handleSessionCompletion (g : Agent cfg) (a : AgentPtr) (c : SessionCompletion)
    (revoked : Bool) : Agent cfg × List AgentOutput × Bool :=
  match g.mySessions.lookup c.key with
  | none => (g, [], true)
  | some x =>
    if revoked = false then (g, [.log (.revokeAccess a x)], false)
    else if c.checkpointed then
      (g.rejoin c.key,
        [.log (.revokeAccess a x), .checkpointed x, .addAgent, .log (.markIdle a 1)], true)
    else
      (g.rejoin c.key,
        [.log (.revokeAccess a x)] ++ (if c.hasResult then [.log (.updateTaskResult x)] else []) ++
          [.complete x .complete, .addAgent, .log (.markIdle a ((g.rejoin c.key).freeSlots a))],
        true)

/-- `handleSessionUpdate`, and `stop` when it returns an error. -/
def handleSessionUpdate (g : Agent cfg) (a : AgentPtr) (m : AgentUpdateRequest) (revoked : Bool) :
    Agent cfg × List AgentOutput :=
  let (g, first) :=
    (m.sessionInitResponse.map fun r => g.handleSessionInitResponse a r.1 r.2).getD (g, [])
  match m.sessionCompletion with
  | none => (g, first)
  | some c =>
    let (g, second, ok) := g.handleSessionCompletion a c revoked
    if ok then (g, first ++ second) else (g.stop.1, first ++ second ++ g.stop.2)

def accept (g : Agent cfg) (a : AgentPtr) (x : SessionPtr) : Agent cfg :=
  let mySessions := g.mySessions.insert x
  { g with
    mySessions := mySessions
    receiving := mySessions.size < cfg.slots a
    shutdownRequested := false }

def acceptOutputs (g : Agent cfg) (a : AgentPtr) (r : SessionRequest) : List AgentOutput :=
  let isExistingSession := (g.mySessions.lookup (cfg.key r.session)).isSome
  (if (g.accept a r.session).receiving then [.addAgent] else []) ++
    (if isExistingSession then []
      else [.log (.markBusy a ((g.accept a r.session).freeSlots a))]) ++
    if r.holdResourceOnly then [] else [.send (.session r.session r.ctx)]

def handleSessionReq (g : Agent cfg) (a : AgentPtr) (r : SessionRequest) :
    Agent cfg × List AgentOutput :=
  if g.stopping then
    ({ g with receiving := false },
      if r.accept then [.respond r.session (.error .stopping)] else [])
  else if g.shutdownRequested ∧ r.accept = false then
    ({ g with receiving := false }, [.log (.markDeleting a)])
  else if r.accept = false then ({ g with receiving := true, shutdownRequested := false }, [.addAgent])
  else (g.accept a r.session, g.acceptOutputs a r)

def handleCancelConfirm (g : Agent cfg) (a : AgentPtr) : Agent cfg × List AgentOutput :=
  ({ g with receiving := false },
    if g.shutdownRequested then [.log (.markDeleting a)]
    else if g.stopping then []
    else [.crash])

/-- A shutdown request on `a.statusChan`. -/
def handleShutdown (g : Agent cfg) (a : AgentPtr) : Agent cfg × List AgentOutput :=
  if 0 < g.mySessions.size then (g, [.log (.markBusy a (g.freeSlots a))])
  else if g.receiving then ({ g with shutdownRequested := true }, [.removeAgent])
  else (g, [.log (.markDeleting a)])

def handle (g : Agent cfg) (a : AgentPtr) : AgentInput → Agent cfg × List AgentOutput
  | .done => g.stop
  | .update m revoked => g.handleSessionUpdate a m revoked
  | .cancelConfirm => g.handleCancelConfirm a
  | .shutdown => g.handleShutdown a
  | .kill k => (g, [.send (.kill k)])
  | .sessionReq r => g.handleSessionReq a r

inductive Inited (g : Agent cfg) (a : AgentPtr) :
    Option (SessionKey × Bool) → Agent cfg × List AgentOutput → Prop
  | none : Inited g a none (g, [])
  | unknown {k : SessionKey} (success : Bool) : g.mySessions.lookup k = none →
      Inited g a (some (k, success)) (g, [])
  | started {k : SessionKey} {x : SessionPtr} : g.mySessions.lookup k = some x →
      Inited g a (some (k, true)) (g, [.respond x .started])
  | failed {k : SessionKey} {x : SessionPtr} : g.mySessions.lookup k = some x →
      Inited g a (some (k, false)) (g.rejoin k,
        [.respond x (.error (.failedToStart (cfg.agentId a))), .complete x .startupFailure,
          .log (.revokeAccess a x), .addAgent, .log (.markIdle a ((g.rejoin k).freeSlots a))])

inductive Completed (g : Agent cfg) (a : AgentPtr) (revoked : Bool) :
    Option SessionCompletion → Agent cfg × List AgentOutput → Prop
  | none : Completed g a revoked none (g, [])
  | unknown {c : SessionCompletion} : g.mySessions.lookup c.key = none →
      Completed g a revoked (some c) (g, [])
  | unrevoked {c : SessionCompletion} {x : SessionPtr} : g.mySessions.lookup c.key = some x →
      revoked = false →
      Completed g a revoked (some c) (g.stop.1, .log (.revokeAccess a x) :: g.stop.2)
  | checkpointed {c : SessionCompletion} {x : SessionPtr} : g.mySessions.lookup c.key = some x →
      revoked = true → c.checkpointed = true →
      Completed g a revoked (some c) (g.rejoin c.key,
        [.log (.revokeAccess a x), .checkpointed x, .addAgent, .log (.markIdle a 1)])
  | completed {c : SessionCompletion} {x : SessionPtr} : g.mySessions.lookup c.key = some x →
      revoked = true → c.checkpointed = false →
      Completed g a revoked (some c) (g.rejoin c.key,
        [.log (.revokeAccess a x)] ++ (if c.hasResult then [.log (.updateTaskResult x)] else []) ++
          [.complete x .complete, .addAgent, .log (.markIdle a ((g.rejoin c.key).freeSlots a))])

lemma inited (g : Agent cfg) (a : AgentPtr) (r : Option (SessionKey × Bool)) :
    g.Inited a r ((r.map fun r => g.handleSessionInitResponse a r.1 r.2).getD (g, [])) := by
  cases r with
  | none => exact .none
  | some r =>
    obtain ⟨k, success⟩ := r
    simp only [Option.map_some, handleSessionInitResponse]
    split
    · next missing => exact .unknown success missing
    · next x found =>
      cases success with
      | true => exact .started found
      | false => exact .failed found

lemma completed (g : Agent cfg) (a : AgentPtr) (c : SessionCompletion) (revoked : Bool) :
    g.Completed a revoked (some c)
      (match g.handleSessionCompletion a c revoked with
        | (h, second, true) => (h, second)
        | (h, second, false) => (h.stop.1, second ++ h.stop.2)) := by
  unfold handleSessionCompletion
  rcases found : g.mySessions.lookup c.key with _ | x
  · exact .unknown found
  · cases revoked with
    | false => exact .unrevoked found rfl
    | true =>
      cases checkpointed : c.checkpointed with
      | true => exact .checkpointed found rfl checkpointed
      | false => exact .completed found rfl checkpointed

lemma updated (g : Agent cfg) (a : AgentPtr) (m : AgentUpdateRequest) (revoked : Bool) :
    ∃ h first out, g.Inited a m.sessionInitResponse (h, first) ∧
      h.Completed a revoked m.sessionCompletion out ∧
      g.handleSessionUpdate a m revoked = (out.1, first ++ out.2) := by
  have inited := g.inited a m.sessionInitResponse
  unfold handleSessionUpdate
  generalize (m.sessionInitResponse.map fun r => g.handleSessionInitResponse a r.1 r.2).getD
    (g, []) = first at inited ⊢
  obtain ⟨h, first⟩ := first
  cases m.sessionCompletion with
  | none => exact ⟨h, first, (h, []), inited, .none, by simp⟩
  | some c =>
    have completed := h.completed a c revoked
    simp only
    generalize h.handleSessionCompletion a c revoked = r at completed ⊢
    obtain ⟨k, second, ok⟩ := r
    cases ok with
    | true => exact ⟨h, first, _, inited, completed, by simp⟩
    | false => exact ⟨h, first, _, inited, completed, by simp⟩

inductive Handled (g : Agent cfg) (a : AgentPtr) :
    AgentInput → Agent cfg × List AgentOutput → Prop
  | stop : Handled g a .done g.stop
  | update (m : AgentUpdateRequest) (revoked : Bool) :
      Handled g a (.update m revoked) (g.handleSessionUpdate a m revoked)
  | confirmed : g.shutdownRequested = true →
      Handled g a .cancelConfirm ({ g with receiving := false }, [.log (.markDeleting a)])
  | withdrawn : g.shutdownRequested = false → g.stopping = true →
      Handled g a .cancelConfirm ({ g with receiving := false }, [])
  | unexpected : g.shutdownRequested = false → g.stopping = false →
      Handled g a .cancelConfirm ({ g with receiving := false }, [.crash])
  | busy : 0 < g.mySessions.size →
      Handled g a .shutdown (g, [.log (.markBusy a (g.freeSlots a))])
  | withdraw : g.mySessions.size = 0 → g.receiving = true →
      Handled g a .shutdown ({ g with shutdownRequested := true }, [.removeAgent])
  | drained : g.mySessions.size = 0 → g.receiving = false →
      Handled g a .shutdown (g, [.log (.markDeleting a)])
  | kill (k : KillRequest) : Handled g a (.kill k) (g, [.send (.kill k)])
  | refused {r : SessionRequest} : g.stopping = true →
      Handled g a (.sessionReq r) ({ g with receiving := false },
        if r.accept then [.respond r.session (.error .stopping)] else [])
  | released {r : SessionRequest} : g.stopping = false → g.shutdownRequested = true →
      r.accept = false →
      Handled g a (.sessionReq r) ({ g with receiving := false }, [.log (.markDeleting a)])
  | declined {r : SessionRequest} : g.stopping = false → g.shutdownRequested = false →
      r.accept = false → Handled g a (.sessionReq r) ({ g with receiving := true }, [.addAgent])
  | accepted {r : SessionRequest} : g.stopping = false → r.accept = true →
      Handled g a (.sessionReq r) (g.accept a r.session, g.acceptOutputs a r)

lemma handled (g : Agent cfg) (a : AgentPtr) (input : AgentInput) :
    g.Handled a input (g.handle a input) := by
  cases input with
  | done => exact .stop
  | update m revoked => exact .update m revoked
  | cancelConfirm =>
    simp only [handle, handleCancelConfirm]
    split
    · next requested => exact .confirmed requested
    · next running =>
      split
      · next stopping => exact .withdrawn (by simpa using running) stopping
      · next alive => exact .unexpected (by simpa using running) (by simpa using alive)
  | shutdown =>
    simp only [handle, handleShutdown]
    split
    · next busy => exact .busy busy
    · split
      · next receiving => exact .withdraw (by omega) receiving
      · next idle => exact .drained (by omega) (by simpa using idle)
  | kill k => exact .kill k
  | sessionReq r =>
    simp only [handle, handleSessionReq]
    split
    · next stopping => exact .refused stopping
    · next alive =>
      have alive : g.stopping = false := by simpa using alive
      split
      · next drained => exact .released alive drained.1 drained.2
      · next kept =>
        split
        · next declined =>
          have running : g.shutdownRequested = false := by simpa [declined] using kept
          have same : ({ g with receiving := true, shutdownRequested := false } : Agent cfg) =
              { g with receiving := true } := by rw [← running]
          rw [same]
          exact .declined alive running declined
        · next accepted => exact .accepted alive (by simpa using accepted)

/-- The loop of `Run` ends when it is stopping and has no offer left. -/
def settle (a : AgentPtr) (r : Agent cfg × List AgentOutput) : Agent cfg × List AgentOutput :=
  if r.1.stopping ∧ r.1.receiving = false then
    ({ r.1 with phase := .returned }, r.2 ++ [.log (.markLost a)])
  else r

end Agent

/-- The branch of the `select` that is taken, without what is received. -/
inductive AgentEvent
  | done
  | update (revoked : Bool)
  | cancelConfirm
  | shutdown
  | kill
  | sessionReq
  deriving DecidableEq

def Net.takeInput (n : Net cfg) (a : AgentPtr) : AgentEvent → Option (Net cfg × AgentInput)
  | .done => some (n, .done)
  | .update revoked =>
    (n.reqChan a).map fun m =>
      ({ n with reqChan := Function.update n.reqChan a none }, .update m revoked)
  | .cancelConfirm =>
    if n.agentConfirm a = 0 then none
    else some ({ n with agentConfirm := Function.update n.agentConfirm a (n.agentConfirm a - 1) },
      .cancelConfirm)
  | .shutdown =>
    if n.statusChan a = 0 then none
    else some ({ n with statusChan := Function.update n.statusChan a (n.statusChan a - 1) },
      .shutdown)
  | .kill =>
    match n.killChan a with
    | [] => none
    | k :: rest => some ({ n with killChan := Function.update n.killChan a rest }, .kill k)
  | .sessionReq =>
    match n.sessionReq a with
    | [] => none
    | r :: rest => some ({ n with sessionReq := Function.update n.sessionReq a rest }, .sessionReq r)

inductive Net.Received (n : Net cfg) (a : AgentPtr) : AgentEvent → Net cfg → AgentInput → Prop
  | done : Received n a .done n .done
  | update {m : AgentUpdateRequest} (revoked : Bool) : n.reqChan a = some m →
      Received n a (.update revoked)
        { n with reqChan := Function.update n.reqChan a none } (.update m revoked)
  | cancelConfirm : n.agentConfirm a ≠ 0 → Received n a .cancelConfirm
      { n with agentConfirm := Function.update n.agentConfirm a (n.agentConfirm a - 1) }
      .cancelConfirm
  | shutdown : n.statusChan a ≠ 0 → Received n a .shutdown
      { n with statusChan := Function.update n.statusChan a (n.statusChan a - 1) } .shutdown
  | kill {k : KillRequest} {rest : List KillRequest} : n.killChan a = k :: rest →
      Received n a .kill { n with killChan := Function.update n.killChan a rest } (.kill k)
  | sessionReq {r : SessionRequest} {rest : List SessionRequest} : n.sessionReq a = r :: rest →
      Received n a .sessionReq { n with sessionReq := Function.update n.sessionReq a rest }
        (.sessionReq r)

lemma Net.received {n m : Net cfg} (h : n.takeInput a e = some (m, input)) :
    n.Received a e m input := by
  cases e with
  | done =>
    cases h
    exact .done
  | update revoked =>
    obtain ⟨r, message, same⟩ := Option.map_eq_some_iff.mp h
    cases same
    exact .update revoked message
  | cancelConfirm =>
    simp only [Net.takeInput] at h
    split at h
    · cases h
    · next some =>
      cases h
      exact .cancelConfirm some
  | shutdown =>
    simp only [Net.takeInput] at h
    split at h
    · cases h
    · next some =>
      cases h
      exact .shutdown some
  | kill =>
    simp only [Net.takeInput] at h
    split at h
    · cases h
    · next queue =>
      cases h
      exact .kill queue
  | sessionReq =>
    simp only [Net.takeInput] at h
    split at h
    · cases h
    · next queue =>
      cases h
      exact .sessionReq queue

namespace State

def perform (a : AgentPtr) (s : State cfg) : AgentOutput → State cfg
  | .addAgent => s.modifyNet (·.addAgent a)
  | .removeAgent => s.modifyNet (·.removeAgent a)
  | .respond x r => s.modifyNet (·.respond x r)
  | .complete x final => s.complete x final
  | .checkpointed x => s.checkpointed x
  | .markStale l t => s.markStale l t
  | .send f => s.modifyNet fun n =>
      { n with resChan := Function.update n.resChan a (n.resChan a ++ [f]) }
  | .log e => s.emit e
  | .crash => { s with crashed := true }

def performAll (s : State cfg) (a : AgentPtr) (r : Agent cfg × List AgentOutput) : State cfg :=
  r.2.foldl (perform a) { s with agents := Function.update s.agents a r.1 }

lemma performAll_rule_mem {P : State cfg → Prop} {s : State cfg}
    (start : P { s with agents := Function.update s.agents a r.1 })
    (each : ∀ u, ∀ o ∈ r.2, P u → P (u.perform a o)) : P (s.performAll a r) := by
  unfold performAll
  generalize ({ s with agents := Function.update s.agents a r.1 } : State cfg) = u at start ⊢
  generalize r.2 = outs at each ⊢
  induction outs generalizing u with
  | nil => exact start
  | cons o rest ih =>
    exact ih _ (each u o List.mem_cons_self start)
      fun u o mem => each u o (List.mem_cons_of_mem _ mem)

lemma performAll_rule {P : State cfg → Prop} {s : State cfg}
    (start : P { s with agents := Function.update s.agents a r.1 })
    (each : ∀ u o, P u → P (u.perform a o)) : P (s.performAll a r) :=
  performAll_rule_mem start fun u o _ => each u o

def agentTurn (s : State cfg) (a : AgentPtr) (e : AgentEvent) : Option (State cfg) :=
  if (s.agents a).phase = .running then
    (s.net.takeInput a e).map fun (n, input) =>
      ({ s with net := n } : State cfg).performAll a (Agent.settle a ((s.agents a).handle a input))
  else none

end State

/-- A function run by the goroutine that reads `resChan`. -/
def Agent.runSend (g : Agent cfg) (a : AgentPtr) (granted sent : Bool) :
    Send → Agent cfg × List AgentOutput
  | .session x _ =>
    let grant := if granted then .log (.grantAccess a x) else .respond x (.error .grant)
    if sent then (g, [grant, .log (.sendSession a x)])
    else
      ({ g with mySessions := g.mySessions.erase (cfg.key x) },
        [grant, .log (.revokeAccess a x), .respond x (.error .send)])
  | .kill k => if sent then (g, [.log (.sendKill a k)]) else g.stop

/-- A turn of that goroutine; it goes on after `Run` has returned. -/
def State.senderTurn (s : State cfg) (a : AgentPtr) (granted sent : Bool) : Option (State cfg) :=
  if (s.agents a).phase.started then
    match s.net.resChan a with
    | [] => none
    | f :: rest =>
      some <| ({ s with net := { s.net with
        resChan := Function.update s.net.resChan a rest } } : State cfg).performAll a
          ((s.agents a).runSend a granted sent f)
  else none

end Velda.Broker
