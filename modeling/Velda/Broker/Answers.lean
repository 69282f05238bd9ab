import Velda.Broker.SessionView

/-! The answers to one request of a session that an agent takes, from `agent.go`: the agent
refuses it when it stops; otherwise its sender grants access and sends the request, and the
agent tells whether the session has started. -/
namespace Velda.Broker
open Lib List Function AgentOutput Agent

variable {cfg : Config} {r : SessionRequest} {f₁ f₂ : Agent cfg → Agent cfg}

/-- What the agent does for a request. It may do other things before the request is sent (`f₁`)
and before the session has started (`f₂`). -/
def Agent.answer (g : Agent cfg) (a : AgentPtr) (r : SessionRequest) (granted sent success : Bool)
    (f₁ f₂ : Agent cfg → Agent cfg) : Agent cfg × List AgentOutput :=
  let (g, taken) := g.handleSessionReq a r
  if .send (.session r.session r.ctx) ∈ taken then
    let (g, sending) := (f₁ g).runSend a granted sent (.session r.session r.ctx)
    if sent then
      let (g, told) := (f₂ g).handleSessionInitResponse a (cfg.key r.session) success
      (g, taken ++ sending ++ told)
    else (g, taken ++ sending)
  else (g, taken)

/-- The session is told once, and is neither sent nor kept when access was not granted. -/
def AnsweredOnce (a : AgentPtr) (r : SessionRequest) (c : Agent cfg × List AgentOutput) : Prop :=
  (c.2.filterMap (onResponse r.session)).length = 1 ∧
    (.respond r.session (.error .grant) ∈ c.2 →
      .log (.sendSession a r.session) ∉ c.2 ∧ c.1.mySessions.lookup (cfg.key r.session) = none)

def KeepsEntry (x : SessionPtr) (f : Agent cfg → Agent cfg) : Prop :=
  ∀ g, (f g).mySessions.lookup (cfg.key x) = g.mySessions.lookup (cfg.key x)

lemma responses_acceptOutputs (g : Agent cfg) (a : AgentPtr) (x : SessionPtr) :
    (g.acceptOutputs a r).filterMap (onResponse x) = [] ∧
      .respond x (.error .grant) ∉ g.acceptOutputs a r := by
  unfold acceptOutputs
  constructor
  · split_ifs <;> simp [filterMap_cons, onResponse]
  · split_ifs <;> simp

/-- A request is answered once exactly when the agent refuses it or access is granted. -/
theorem answered_once_iff (g : Agent cfg) (a : AgentPtr) (granted sent success : Bool)
    (accept : r.accept = true) (starts : r.holdResourceOnly = false)
    (keeps₁ : KeepsEntry r.session f₁) (keeps₂ : KeepsEntry r.session f₂) :
    AnsweredOnce a r (g.answer a r granted sent success f₁ f₂) ↔
      g.stopping = true ∨ granted = true := by
  unfold Agent.answer AnsweredOnce
  by_cases stops : g.stopping = true
  · simp [handleSessionReq, stops, accept, onResponse]
  have taken : g.handleSessionReq a r = (g.accept a r.session, g.acceptOutputs a r) := by
    simp [handleSessionReq, stops, accept]
  have queued : .send (.session r.session r.ctx) ∈ g.acceptOutputs a r := by
    simp [acceptOutputs, starts]
  have entry : (f₁ (g.accept a r.session)).mySessions.lookup (cfg.key r.session) =
      some r.session := by
    rw [keeps₁]
    exact Keyed.lookup_insert_self ..
  obtain ⟨silent, ungranted⟩ := responses_acceptOutputs (r := r) g a r.session
  simp only [taken, queued, if_true, stops]
  cases sent with
  | false =>
    simp only [runSend, Bool.false_eq_true, if_false, filterMap_append, silent]
    cases granted <;> simp [filterMap_cons, onResponse, ungranted]
  | true =>
    have started := keeps₂ (f₁ (g.accept a r.session))
    rw [entry] at started
    simp only [runSend, if_true, handleSessionInitResponse, started, filterMap_append, silent]
    cases granted <;> cases success <;> simp [filterMap_cons, onResponse, ungranted]

theorem answered_once_granted : AnsweredOnce 0 ⟨0, none, true, false⟩
    (({} : Agent (pool 1)).answer 0 ⟨0, none, true, false⟩ true true false id id) :=
  (answered_once_iff _ _ _ _ _ rfl rfl (fun _ => rfl) fun _ => rfl).mpr (.inr rfl)

/-- Access is not granted: the session ends with this answer, is sent to the agent all the same,
and the agent, which keeps it, answers again that it has started. -/
theorem answered_twice : ∃ s : State (pool 1), Reachable step Unblocked .init s ∧
    (s.sessions 0).schedulingErr = some (.agent .grant) ∧ s.net.agentResponse 0 = [.started] ∧
      0 ∈ (s.agents 0).mySessions ∧ .sendSession 0 0 ∈ s.events :=
  exists_of_run step Unblocked .init
    (List.flatten [joins 0, submits 0 0, [.loop 0 0 .agent, .agent 0 .sessionReq,
      .sender 0 false true, .loop 0 0 .response], (starts (pool 1) 0 0).take 2])
    _ (by decide +kernel)

end Velda.Broker
