import Velda.Broker.View

/-! Free slots. An agent with a free slot is on offer as long as nothing drops it from
the scheduler, and when nothing is in flight an offer can only be a place in the
scheduler's set. -/
namespace Velda.Broker
open Lib Agent

variable {cfg : Config}

/-- The condition for one agent: it starts with all slots free or none, reads no request to shut
down, does not lose a session to a failed send while it is full, and no other connection under
its id is read in its place. -/
def Attended (a : AgentPtr) (s : State cfg) : Action → Prop
  | .startAgent b => b = a →
      (s.agents a).mySessions.size = 0 ∨ cfg.slots a ≤ (s.agents a).mySessions.size
  | .agent b .shutdown => b ≠ a
  | .sender b _ false => b = a → (s.agents a).mySessions.size < cfg.slots a ∨
      ∀ f ∈ (s.net.resChan a).head?, ∀ x ∈ f.session?,
        (s.agents a).mySessions.lookup (cfg.key x) = none
  | .scheduler pool _ _ => pool = cfg.agentPool a → (s.net.agentsOf pool).Keeps a
  | _ => True

instance (a : AgentPtr) (s : State cfg) (act : Action) : Decidable (Attended a s act) := by
  induction act using Action.casesOn with
  | agent b e => induction e using AgentEvent.casesOn <;> unfold Attended <;> infer_instance
  | sender b granted sent => induction sent using Bool.casesOn <;> unfold Attended <;> infer_instance
  | _ => unfold Attended; infer_instance

/-- An agent with a free slot is on offer, and nothing takes it out of the scheduler. -/
structure Offering (a : AgentPtr) (v : View cfg) : Prop where
  ready : v.agent.phase = .running → v.agent.stopping = false →
    v.agent.mySessions.size < cfg.slots a → 0 < v.offers
  calm : v.agent.stopping = false → v.leaving = 0 ∧ v.confirm = 0
  unasked : v.agent.shutdownRequested = false

variable {a : AgentPtr} {g : Agent cfg}

namespace Agent

lemma count_removeAgent_update (alive : (g.handleSessionUpdate a m revoked).1.stopping = false) :
    (g.handleSessionUpdate a m revoked).2.count .removeAgent = 0 := by
  obtain ⟨h, first, out, inited, completed, same⟩ := g.updated a m revoked
  rw [same] at alive ⊢
  obtain ⟨init, completion⟩ := m
  have none : first.count .removeAgent = 0 := by cases inited <;> simp
  cases completed with
  | unrevoked => simp at alive
  | @completed c => cases c.hasResult <;> simp [none]
  | none | unknown | checkpointed => simp [none]

lemma unasked_handle (a : AgentPtr) (notShutdown : input ≠ .shutdown)
    (unasked : g.shutdownRequested = false) : (g.handle a input).1.shutdownRequested = false := by
  have handled := g.handled a input
  generalize g.handle a input = out at handled ⊢
  cases handled with
  | stop => exact (Ended.stop g).shutdownRequested.trans unasked
  | update m revoked => exact (g.ended_of_update a m revoked).1.shutdownRequested.trans unasked
  | busy | withdraw | drained => exact absurd rfl notShutdown
  | accepted => rfl
  | _ => exact unasked

lemma offering_handle {offers confirm : Nat} (notShutdown : input ≠ .shutdown)
    (unasked : g.shutdownRequested = false)
    (ready : g.stopping = false → g.mySessions.size < cfg.slots a → 0 < offers + input.consumes cfg)
    (calm : g.stopping = false → confirm + input.confirms = 0)
    (alive : (g.handle a input).1.stopping = false) :
    ((g.handle a input).1.mySessions.size < cfg.slots a →
      0 < offers + (g.handle a input).2.count .addAgent) ∧
      (g.handle a input).2.count .removeAgent = 0 ∧ g.stopping = false := by
  have handled := g.handled a input
  generalize g.handle a input = out at handled alive ⊢
  cases handled with
  | stop => simp at alive
  | update m revoked =>
    obtain ⟨ended, count⟩ := g.ended_of_update a m revoked
    have before : g.stopping = false := by
      by_contra stopping
      rw [ended.stopping (by simpa using stopping)] at alive
      cases alive
    refine ⟨fun free => ?_, count_removeAgent_update alive, before⟩
    have size := ended.size
    by_cases none : g.endings m revoked = 0
    · have offered := ready before (by omega)
      simp only [AgentInput.consumes] at offered
      omega
    · omega
  | confirmed | withdrawn | unexpected =>
    have none := calm alive
    simp [AgentInput.confirms] at none
  | busy | withdraw | drained => exact absurd rfl notShutdown
  | kill =>
    refine ⟨fun free => ?_, by simp, alive⟩
    simpa [AgentInput.consumes] using ready alive free
  | refused stopping =>
    rw [show g.stopping = false from alive] at stopping
    cases stopping
  | released _ requested =>
    rw [unasked] at requested
    cases requested
  | declined => exact ⟨fun _ => by simp, by simp, alive⟩
  | @accepted r =>
    obtain ⟨adds, removes⟩ := g.count_acceptOutputs a r
    refine ⟨fun free => ?_, removes, alive⟩
    have free : (g.mySessions.insert r.session).size < cfg.slots a := free
    rw [adds]
    simp [accept, free]

end Agent

lemma Offering.step {v : View cfg} (blank : (s.view a).Blank) (O : Offering a (s.view a))
    (attended : Attended a s act) (h : AgentStep a s act v) : Offering a v := by
  obtain ⟨ready, calm, unasked⟩ := O
  simp only [State.view] at ready calm unasked
  cases h with
  | untouched => exact ⟨ready, calm, unasked⟩
  | connect fresh =>
    have quiet := calm (by rw [blank.agent fresh])
    exact ⟨fun running => (by cases running), fun _ => quiet, rfl⟩
  | register phase =>
    refine ⟨fun running => ?_, calm, unasked⟩
    rw [show (s.agents a).phase = .running from running] at phase
    cases phase
  | start phase =>
    refine ⟨fun _ _ free => ?_, calm, unasked⟩
    rcases attended rfl with empty | full
    · simp [empty]
    · have free : (s.agents a).mySessions.size < cfg.slots a := free
      omega
  | drop => exact ⟨fun running => (by cases running), calm, unasked⟩
  | recv => exact ⟨ready, calm, unasked⟩
  | @turn e n input offers confirm phase taken read unconfirmed =>
    have notShutdown : input ≠ .shutdown := by
      rintro rfl
      cases Net.received taken with
      | shutdown => exact attended rfl
    have turned := (s.agents a).offering_handle notShutdown unasked
      (fun alive free => by rw [read]; exact ready phase alive free)
      (fun alive => by rw [unconfirmed]; exact (calm alive).2)
    refine ⟨fun _ alive free => ?_, fun alive => ?_, ?_⟩
    · rw [stopping_settle] at alive
      rw [mySessions_settle] at free
      exact (turned alive).1 free
    · rw [stopping_settle] at alive
      obtain ⟨-, stays, before⟩ := turned alive
      obtain ⟨inside, none⟩ := calm before
      simp only
      omega
    · rw [shutdownRequested_settle]
      exact unasked_handle a notShutdown unasked
  | @sender f rest granted sent phase queue =>
    cases f with
    | kill k =>
      cases sent with
      | true => exact ⟨ready, calm, unasked⟩
      | false =>
        refine ⟨fun _ alive => ?_, fun alive => ?_, ?_⟩
        · simp [runSend] at alive
        · simp [runSend] at alive
        · rw [shutdownRequested_runSend]
          exact unasked
    | session x ctx =>
      have stays : ((s.agents a).runSend a granted sent (.session x ctx)).2.count .removeAgent = 0 := by
        cases granted <;> cases sent <;> rfl
      rw [stays]
      cases sent with
      | true => exact ⟨ready, calm, unasked⟩
      | false =>
        refine ⟨fun running alive free => ?_, calm, unasked⟩
        have size := (s.agents a).mySessions.size_erase (cfg.key x)
        have free : ((s.agents a).mySessions.erase (cfg.key x)).size < cfg.slots a := free
        refine ready running alive ?_
        rcases attended rfl with before | absent
        · exact before
        · rw [absent (.session x ctx) (by rw [queue]; rfl) x rfl] at size
          simp only [Option.isSome_none, Bool.false_eq_true, if_false] at size
          omega
  | @scheduler c pick r confirmed matched moved _ =>
    have left := moved.removes_count a
    have total := s.net.offers_eq_away a
    refine ⟨fun running alive free => ?_, fun alive => ?_, unasked⟩
    · have offered := ready running alive free
      have inside : (s.net.agentsOf (cfg.agentPool a)).removes.count a = 0 := (calm alive).1
      by_cases waits : 0 < (s.net.agentsOf (cfg.agentPool a)).waiting a
      · have kept := moved.waiting_pos (attended rfl) waits
        simp only
        omega
      · simp only
        omega
    · have inside : (s.net.agentsOf (cfg.agentPool a)).removes.count a = 0 := (calm alive).1
      have none := (calm alive).2
      simp only
      omega

/-- Nothing is in flight between the sessions, the scheduler and the agents of a pool. -/
structure State.Quiet (s : State cfg) (pool : String) : Prop where
  scheduler : (s.net.schedulers pool).agents.adds = [] ∧
    (s.net.schedulers pool).agents.removes = [] ∧ (s.net.schedulers pool).sessions.adds = [] ∧
    (s.net.schedulers pool).sessions.removes = []
  matched : ∀ m ∈ s.net.agentChan, cfg.agentPool m.2 ≠ pool
  requests : ∀ b ∈ s.connected, cfg.agentPool b = pool → s.net.sessionReq b = []

instance (s : State cfg) (pool : String) : Decidable (s.Quiet pool) :=
  decidable_of_iff (_ ∧ _ ∧ _) ⟨fun h => ⟨h.1, h.2.1, h.2.2⟩, fun h => ⟨h.1, h.2, h.3⟩⟩

lemma mem_of_quiet {s : State cfg} (quiet : s.Quiet (cfg.agentPool a))
    (connected : a ∈ s.connected) (offered : 0 < s.net.offers a) :
    a ∈ (s.net.schedulers (cfg.agentPool a)).agents.members := by
  have unmatched : s.net.agentChan.countP (·.2 = a) = 0 := by
    refine List.countP_eq_zero.mpr fun m mem same => quiet.matched m mem ?_
    rw [of_decide_eq_true same]
  have waits : (s.net.schedulers (cfg.agentPool a)).agents.waiting a ≠ 0 := by
    simp only [Net.offers, quiet.requests a connected rfl, List.countP_nil] at offered
    omega
  rw [Ne, Registry.waiting_eq_zero_iff, quiet.scheduler.1] at waits
  simpa using waits

/-- When nothing is in flight, a running agent with a free slot is in the scheduler's set, and
the scheduler does not hold both an agent and a session. -/
theorem no_slot_stranded (a : AgentPtr) {s : State cfg} (h : Reachable step (Attended a) .init s)
    (quiet : s.Quiet (cfg.agentPool a))
    (up : (s.net.schedulers (cfg.agentPool a)).shuttingDown = false) :
    ((s.agents a).phase = .running → (s.agents a).stopping = false →
      (s.agents a).mySessions.size < cfg.slots a →
      a ∈ (s.net.schedulers (cfg.agentPool a)).agents.members) ∧
    ((s.net.schedulers (cfg.agentPool a)).agents.members.size = 0 ∨
      (s.net.schedulers (cfg.agentPool a)).sessions.members.size = 0) := by
  have offering := view_invariant (I := Offering a) a
    ⟨fun running => (by cases running), fun _ => ⟨rfl, rfl⟩, rfl⟩ (fun _ _ _ => Offering.step) h
  refine ⟨fun running alive free => ?_, ?_⟩
  · have connected : a ∈ s.connected := by
      by_contra absent
      rw [(blank_of_reachable h a).agent absent] at running
      cases running
    exact mem_of_quiet quiet connected (offering.ready running alive free)
  · rcases matched_of_reachable h (cfg.agentPool a) with down | none
    · rw [up] at down
      cases down
    · exact none

theorem no_slot_stranded_second :
    ∃ s : State (pool 2), Reachable step (Attended 0) .init s ∧ s.Quiet "pool" ∧
      (s.agents 0).mySessions.entries = [0] ∧ 0 ∈ (s.net.schedulers "pool").agents.members := by
  obtain ⟨s, reached, quiet, up, running, alive, held⟩ :=
    exists_of_run step (@Attended (pool 2) 0) .init
      (List.flatten [joins 0, submits 0 0, accepts 0 0, [.scheduler "pool" .addAgent 0]])
      (fun s => s.Quiet "pool" ∧ (s.net.schedulers "pool").shuttingDown = false ∧
        (s.agents 0).phase = .running ∧ (s.agents 0).stopping = false ∧
        (s.agents 0).mySessions.entries = [0]) (by decide)
  refine ⟨s, reached, quiet, held, (no_slot_stranded 0 reached quiet up).1 running alive ?_⟩
  rw [Keyed.size, held]
  decide

/-- An agent with two slots that connects with one session is not put on offer: a session waits
beside it while nothing is in flight. -/
theorem slot_stranded : ∃ s : State (pool 2), Reachable step Unblocked .init s ∧ s.Quiet "pool" ∧
      s.serverDone = false ∧ (s.agents 0).phase = .running ∧ (s.agents 0).stopping = false ∧
      (s.agents 0).mySessions.entries = [0] ∧ 0 ∉ (s.net.schedulers "pool").agents.members ∧
      1 ∈ (s.net.schedulers "pool").sessions.members :=
  exists_of_run step Unblocked .init
    (List.flatten [[.connect 0, .register 0 0, .startAgent 0], submits 1 0]) _ (by decide)

end Velda.Broker
