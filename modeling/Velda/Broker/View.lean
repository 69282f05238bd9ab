import Velda.Broker.Pools

/-! The broker as one agent sees it: its own state, how often it is on offer, how often
it is on its way out of the scheduler, and how many confirmations wait for it.
Every step of the broker is one of a few moves of this view. -/
namespace Velda.Broker
open Lib Function State Net

variable {cfg : Config}

structure View (cfg : Config) where
  connected : Prop
  agent : Agent cfg
  offers : Nat
  leaving : Nat
  confirm : Nat

def State.view (s : State cfg) (a : AgentPtr) : View cfg :=
  ⟨a ∈ s.connected, s.agents a, s.net.offers a, s.net.leaving a, s.net.agentConfirm a⟩

def Net.away (n : Net cfg) (a : AgentPtr) : Nat :=
  n.agentChan.countP (·.2 = a) + (n.sessionReq a).countP (!·.isRelease cfg)

lemma Net.offers_eq_away (n : Net cfg) (a : AgentPtr) :
    n.offers a = (n.agentsOf (cfg.agentPool a)).waiting a + n.away a :=
  Nat.add_assoc _ _ _

namespace Agent

def launched (g : Agent cfg) : Agent cfg :=
  { g with phase := .running, receiving := g.receiving || decide (g.mySessions.size = 0) }

lemma count_settle (a : AgentPtr) (r : Agent cfg × List AgentOutput) :
    (settle a r).2.count .addAgent = r.2.count .addAgent ∧
      (settle a r).2.count .removeAgent = r.2.count .removeAgent := by
  unfold settle
  split
  · simp
  · exact ⟨rfl, rfl⟩

lemma count_runSend (g : Agent cfg) (a : AgentPtr) (granted sent : Bool) (f : Send) :
    (g.runSend a granted sent f).2.count .addAgent = 0 := by
  cases f with
  | session x ctx => cases granted <;> cases sent <;> rfl
  | kill k =>
    cases sent with
    | true => rfl
    | false => exact g.count_stop

lemma phase_runSend (g : Agent cfg) (a : AgentPtr) (granted sent : Bool) (f : Send) :
    (g.runSend a granted sent f).1.phase = g.phase := by
  cases f with
  | session x ctx => cases sent <;> rfl
  | kill k =>
    cases sent with
    | true => rfl
    | false => exact (Ended.stop g).phase

@[simp] lemma mySessions_settle (a : AgentPtr) (r : Agent cfg × List AgentOutput) :
    (settle a r).1.mySessions = r.1.mySessions := by
  unfold settle
  split <;> rfl

@[simp] lemma mySessions_stop (g : Agent cfg) : g.stop.1.mySessions = g.mySessions := by
  unfold stop
  split <;> rfl

@[simp] lemma stopping_stop (g : Agent cfg) : g.stop.1.stopping = true := by
  unfold stop
  split
  · next stopping => exact stopping
  · rfl

lemma stopping_runSend {g : Agent cfg} (a : AgentPtr) (granted sent : Bool) (f : Send)
    (stopping : g.stopping = true) : (g.runSend a granted sent f).1.stopping = true := by
  cases f with
  | session x ctx => cases sent <;> exact stopping
  | kill k =>
    cases sent with
    | true => exact stopping
    | false => exact g.stopping_stop

@[simp] lemma stopping_settle (a : AgentPtr) (r : Agent cfg × List AgentOutput) :
    (settle a r).1.stopping = r.1.stopping := by
  unfold settle
  split <;> rfl

lemma size_runSend_le (g : Agent cfg) (a : AgentPtr) (granted sent : Bool) (f : Send) :
    (g.runSend a granted sent f).1.mySessions.size ≤ g.mySessions.size := by
  cases f with
  | session x ctx =>
    cases sent with
    | true => exact le_rfl
    | false =>
      have erased := g.mySessions.size_erase (cfg.key x)
      show (g.mySessions.erase (cfg.key x)).size ≤ _
      omega
  | kill k =>
    cases sent with
    | true => exact le_rfl
    | false => simp [runSend]

@[simp] lemma shutdownRequested_settle (a : AgentPtr) (r : Agent cfg × List AgentOutput) :
    (settle a r).1.shutdownRequested = r.1.shutdownRequested := by
  unfold settle
  split <;> rfl

lemma shutdownRequested_runSend (g : Agent cfg) (a : AgentPtr) (granted sent : Bool) (f : Send) :
    (g.runSend a granted sent f).1.shutdownRequested = g.shutdownRequested := by
  cases f with
  | session x ctx => cases sent <;> rfl
  | kill k =>
    cases sent with
    | true => rfl
    | false => exact (Ended.stop g).shutdownRequested

end Agent

inductive AgentStep (a : AgentPtr) (s : State cfg) : Action → View cfg → Prop
  | untouched {act : Action} : AgentStep a s act (s.view a)
  | connect : a ∉ s.connected → AgentStep a s (.connect a)
      { s.view a with connected := True, agent := { phase := .registering } }
  | register {x : SessionPtr} : (s.agents a).phase = .registering → AgentStep a s (.register a x)
      { s.view a with
        agent := { s.agents a with mySessions := (s.agents a).mySessions.insert x } }
  | start : (s.agents a).phase = .registering → AgentStep a s (.startAgent a)
      { s.view a with
        agent := (s.agents a).launched
        offers := s.net.offers a + if (s.agents a).mySessions.size = 0 then 1 else 0 }
  | drop : (s.agents a).phase = .registering → AgentStep a s (.dropAgent a)
      { s.view a with agent := { s.agents a with phase := .dropped } }
  | recv {m : AgentUpdateRequest} : (s.agents a).phase = .running → AgentStep a s (.recv a m)
      { s.view a with agent := { s.agents a with lastMessageTime := s.now } }
  | turn {e : AgentEvent} {n : Net cfg} {input : AgentInput} {offers confirm : Nat} :
      (s.agents a).phase = .running → s.net.takeInput a e = some (n, input) →
      offers + input.consumes cfg = s.net.offers a →
      confirm + input.confirms = s.net.agentConfirm a →
      AgentStep a s (.agent a e)
        { s.view a with
          agent := (Agent.settle a ((s.agents a).handle a input)).1
          offers := offers + ((s.agents a).handle a input).2.count .addAgent
          leaving := s.net.leaving a + ((s.agents a).handle a input).2.count .removeAgent
          confirm := confirm }
  | sender {f : Send} {rest : List Send} (granted sent : Bool) :
      (s.agents a).phase.started = true →
      s.net.resChan a = f :: rest → AgentStep a s (.sender a granted sent)
        { s.view a with
          agent := ((s.agents a).runSend a granted sent f).1
          leaving := s.net.leaving a +
            ((s.agents a).runSend a granted sent f).2.count .removeAgent }
  | scheduler {c : Select} {pick : AgentPtr} {r : Registry cfg.agentId}
      {confirmed matched : Option AgentPtr} :
      (s.net.agentsOf (cfg.agentPool a)).Turn r confirmed matched →
      (confirmed ≠ none → c = .removeAgent) → AgentStep a s (.scheduler (cfg.agentPool a) c pick)
        { s.view a with
          offers := r.waiting a + (if matched = some a then 1 else 0) + s.net.away a
          leaving := r.removes.count a
          confirm := s.net.agentConfirm a + if confirmed = some a then 1 else 0 }

variable {s : State cfg} {a : AgentPtr}

lemma SameOffers.view {t : State cfg} (h : SameOffers s.net t.net) (agents : t.agents = s.agents)
    (connected : t.connected = s.connected) (a : AgentPtr) : t.view a = s.view a := by
  simp only [State.view, agents, connected, h.offers, h.confirm, Net.leaving, h.registry]

lemma State.view_performAll (s : State cfg) (a b : AgentPtr)
    (r : Agent cfg × List AgentOutput) :
    (s.performAll a r).view b =
      if a = b then
        { s.view b with
          agent := r.1
          offers := s.net.offers b + r.2.count .addAgent
          leaving := s.net.leaving b + r.2.count .removeAgent }
      else s.view b := by
  obtain ⟨offers, leaving, confirm⟩ := s.offers_performAll a r b
  simp only [view, offers, leaving, confirm]
  split
  · next same => simp [same]
  · next other => simp [update_of_ne (Ne.symm other)]

lemma agentStep_deliver (housed : Housed s.net) {pool : String}
    (h : (s.net.schedulers pool).turn c pick = some (p, d)) :
    AgentStep a s (.scheduler pool c pick) ((s.modifyNet (·.deliver pool p d)).view a) := by
  have moved := (Scheduler.turn_moves h).1
  obtain ⟨m, received, -⟩ := Scheduler.turn_cases h
  have chan : (s.net.agentChan ++ d.matched.toList).countP (·.2 = a) =
      s.net.agentChan.countP (·.2 = a) + if d.matched.map (·.2) = some a then 1 else 0 := by
    cases d.matched <;> simp
  by_cases same : cfg.agentPool a = pool
  · subst same
    convert AgentStep.scheduler (c := c) (s := s) moved (Scheduler.receive_confirm received).1
      using 1
    simp only [view, modifyNet, deliver, offers, leaving, agentsOf,
      away, update_self, View.mk.injEq, true_and, and_true]
    omega
  · have notConfirmed : d.agentConfirm ≠ some a := fun confirmed =>
      same (housed.agents pool a (moved.mentions.2.1 a confirmed))
    have notMatched : d.matched.map (·.2) ≠ some a := fun matched =>
      same (housed.agents pool a (moved.mentions.2.2 a matched))
    convert AgentStep.untouched using 1
    simp [view, modifyNet, deliver, offers, leaving, agentsOf,
      update_of_ne same, chan, notConfirmed, notMatched]

/-- Every step is a move of the view of every agent. -/
lemma agentStep_of_step (housed : Housed s.net) (h : Step s act t) (a : AgentPtr) :
    AgentStep a s act (t.view a) := by
  cases h with
  | @connect b fresh =>
    by_cases same : b = a
    · subst same
      convert AgentStep.connect fresh using 1
      simp [view, modifyAgent]
    · convert AgentStep.untouched using 1
      simp [view, modifyAgent, Ne.symm same]
  | @register b x phase =>
    by_cases same : b = a
    · subst same
      convert AgentStep.register phase using 1
      simp [view, registered]
    · convert AgentStep.untouched using 1
      simp [view, registered, update_of_ne (Ne.symm same)]
  | @startAgent b phase =>
    rw [startAgent, view_performAll]
    split
    · next same =>
      subst same
      convert AgentStep.start phase using 1
      by_cases idle : (s.agents b).mySessions.size = 0 <;>
        simp [view, Agent.launched, idle]
    · exact .untouched
  | @dropAgent b phase =>
    by_cases same : b = a
    · subst same
      convert AgentStep.drop phase using 1
      simp [view, modifyAgent]
    · convert AgentStep.untouched using 1
      simp [view, modifyAgent, update_of_ne (Ne.symm same)]
  | @recv b m phase =>
    by_cases same : b = a
    · subst same
      convert AgentStep.recv phase using 1
      simp [view, modifyAgent, modifyNet, offers, leaving, agentsOf]
    · convert AgentStep.untouched using 1
      simp [view, modifyAgent, modifyNet, offers, leaving, agentsOf,
        update_of_ne (Ne.symm same)]
  | @agent b e n input phase taken =>
    obtain ⟨offers, confirm⟩ := (received taken).offers a
    have leaving : n.leaving a = s.net.leaving a := by
      rw [leaving, agentsOf, (received taken).schedulers]
      rfl
    rw [view_performAll]
    split
    · next same =>
      subst same
      rw [if_pos rfl] at offers confirm
      convert AgentStep.turn phase taken offers confirm using 1
      simp [view, Agent.count_settle, leaving]
    · next other =>
      rw [if_neg other, Nat.add_zero] at offers confirm
      convert AgentStep.untouched using 1
      simp [view, offers, confirm, leaving]
  | @sender b f rest granted sent phase queue =>
    rw [view_performAll]
    split
    · next same =>
      subst same
      convert AgentStep.sender granted sent phase queue using 1
      simp [view, Agent.count_runSend, offers, leaving, agentsOf]
    · exact .untouched
  | scheduler _ turned => exact agentStep_deliver housed turned
  | loop _ taken =>
    obtain ⟨agents, connected, same⟩ := sameOffers_loopStep taken
    rw [same.view agents connected a]
    exact .untouched
  | _ => exact .untouched

def View.Blank (v : View cfg) : Prop := ¬ v.connected → v.agent = {}

lemma View.Blank.agent (B : (s.view a).Blank) (fresh : a ∉ s.connected) : s.agents a = {} :=
  B fresh

lemma View.Blank.step (B : (s.view a).Blank) (h : AgentStep a s act v) : v.Blank := by
  have running : (s.agents a).phase ≠ .absent → a ∈ s.connected := by
    intro present
    by_contra absent
    rw [B.agent absent] at present
    exact present rfl
  cases h with
  | untouched | scheduler => exact B
  | connect => exact fun absent => absurd trivial absent
  | register phase | start phase | drop phase | recv phase | turn phase =>
    exact fun absent => absurd (running (by rw [phase]; simp)) absent
  | sender _ _ phase =>
    exact fun absent => absurd (running fun none => by rw [none] at phase; cases phase) absent

lemma blank_of_reachable {ok : State cfg → Action → Prop} (h : Reachable step ok .init s)
    (a : AgentPtr) : (s.view a).Blank :=
  Reachable.invariant_of (K := fun s : State cfg => Housed s.net)
    (I := fun s : State cfg => (s.view a).Blank) (fun _ => housed_of_reachable) (fun _ => rfl)
    (fun _ _ _ housed B _ taken => B.step (agentStep_of_step housed (step_cases taken).2 a)) h

/-- The induction rule for what one agent sees. -/
lemma view_invariant {ok : State cfg → Action → Prop} {I : View cfg → Prop} (a : AgentPtr)
    (start : I ((init : State cfg).view a))
    (preserved : ∀ s act v, (s.view a).Blank → I (s.view a) → ok s act →
      AgentStep a s act v → I v) (h : Reachable step ok .init s) : I (s.view a) :=
  Reachable.invariant_of (K := fun s : State cfg => Housed s.net ∧ (s.view a).Blank)
    (I := fun s : State cfg => I (s.view a))
    (fun _ before => ⟨housed_of_reachable before, blank_of_reachable before a⟩) start
    (fun s act _ known inv meets taken => preserved s act _ known.2 inv meets
      (agentStep_of_step known.1 (step_cases taken).2 a)) h

end Velda.Broker
