import Velda.Broker.View

/-! How an agent leaves. `Run` returns when the agent is stopping and `receiving` is
false, so everything rests on what the flag says about the scheduler: while the
flag is false the agent must not be on offer. -/
namespace Velda.Broker
open Lib State Agent

variable {cfg : Config}

/-- The condition for one agent: it ends no session and gets no release while it is on offer, and
the scheduler confirms its removal only in its own place. -/
def Steady (a : AgentPtr) (s : State cfg) : Action → Prop
  | .agent b e => b = a → ∀ r ∈ s.net.takeInput a e, (s.agents a).Once r.2
  | .scheduler pool .removeAgent _ => pool = cfg.agentPool a → (s.net.agentsOf pool).Answers a
  | _ => True

instance (a : AgentPtr) (s : State cfg) (act : Action) : Decidable (Steady a s act) := by
  induction act using Action.casesOn with
  | scheduler pool c pick => induction c using Select.casesOn <;> unfold Steady <;> infer_instance
  | _ => unfold Steady; infer_instance

/-- The agent is on offer, or has a confirmation to read, only while its flag says so. -/
structure Flagged (v : View cfg) : Prop where
  bound : v.offers + v.confirm ≤ v.agent.receiving.toNat
  running : v.agent.receiving = true → v.agent.phase = .running

lemma Flagged.none (F : Flagged v) (phase : v.agent.phase ≠ .running) :
    v.agent.receiving = false ∧ v.offers = 0 ∧ v.confirm = 0 := by
  have idle : v.agent.receiving = false := by
    by_contra receiving
    exact phase (F.running (by simpa using receiving))
  have bound := F.bound
  rw [idle, Bool.toNat_false] at bound
  exact ⟨idle, by omega, by omega⟩

@[simp] lemma Agent.receiving_settle (a : AgentPtr) (r : Agent cfg × List AgentOutput) :
    (settle a r).1.receiving = r.1.receiving := by
  unfold settle
  split <;> rfl

lemma Agent.receiving_runSend (g : Agent cfg) (a : AgentPtr) (granted sent : Bool) (f : Send) :
    (g.runSend a granted sent f).1.receiving = g.receiving := by
  cases f with
  | session x ctx => cases sent <;> rfl
  | kill k =>
    cases sent with
    | true => rfl
    | false => exact g.receiving_stop

lemma Flagged.step (blank : (s.view a).Blank) (F : Flagged (s.view a)) (steady : Steady a s act)
    (h : AgentStep a s act v) : Flagged v := by
  have bound : s.net.offers a + s.net.agentConfirm a ≤ (s.agents a).receiving.toNat := F.bound
  have running : (s.agents a).receiving = true → (s.agents a).phase = .running := F.running
  cases h with
  | untouched => exact F
  | connect fresh =>
    obtain ⟨-, none, unconfirmed⟩ := F.none (by simp [view, blank.agent fresh])
    exact ⟨by simp [none, unconfirmed], fun receiving => by cases receiving⟩
  | register | recv => exact ⟨bound, running⟩
  | start phase =>
    obtain ⟨idle, none, unconfirmed⟩ := F.none (by simp [view, phase])
    simp only [view] at idle none unconfirmed
    refine ⟨?_, fun _ => rfl⟩
    by_cases empty : (s.agents a).mySessions.size = 0 <;>
      simp [view, launched, none, unconfirmed, empty]
  | drop phase =>
    obtain ⟨idle, -⟩ := F.none (by simp [view, phase])
    refine ⟨bound, fun receiving => ?_⟩
    rw [show (s.agents a).receiving = false from idle] at receiving
    cases receiving
  | @turn e n input _ _ phase taken offers confirm =>
    have once : (s.agents a).Once input := steady rfl _ taken
    have flag := receiving_handle a once (by omega)
    refine ⟨?_, fun receiving => ?_⟩
    · simp only [receiving_settle]
      omega
    · rw [receiving_settle] at receiving
      rw [settle, if_neg (by simp [receiving]), phase_handle]
      exact phase
  | @sender f _ granted sent phase queue =>
    have same := (s.agents a).receiving_runSend a granted sent f
    refine ⟨by rw [same]; exact bound, fun receiving => ?_⟩
    rw [same] at receiving
    rw [phase_runSend]
    exact running receiving
  | @scheduler c pick r confirmed matched moved read =>
    have total := s.net.offers_eq_away a
    have fewer := (moved.waiting_le a).2 fun own => by
      obtain rfl := read (by rw [own]; simp)
      exact steady rfl
    exact ⟨by simp only [view]; omega, running⟩

lemma flagged_of_reachable {ok : State cfg → Action → Prop}
    (steady : ∀ s act, ok s act → Steady a s act) (h : Reachable step ok .init s) :
    Flagged (s.view a) :=
  view_invariant a ⟨Nat.zero_le _, fun receiving => by cases receiving⟩
    (fun s act _ blank F meets => Flagged.step blank F (steady s act meets)) h

/-- An agent whose `Run` has returned is in no scheduler's set or queue and is matched with no
session, as long as its flag follows its offers. -/
theorem returned_not_offered (a : AgentPtr) {s : State cfg}
    (h : Reachable step (Steady a) .init s) (returned : (s.agents a).phase = .returned) :
    (∀ pool, a ∉ (s.net.schedulers pool).agents.adds ∧
      a ∉ (s.net.schedulers pool).agents.members) ∧ ∀ x, (x, a) ∉ s.net.agentChan := by
  have none : s.net.offers a = 0 :=
    ((flagged_of_reachable (fun _ _ => id) h).none (by simp [view, returned])).2.1
  have away := s.net.offers_eq_away a
  refine ⟨fun pool => ?_, fun x matched => ?_⟩
  · by_cases own : cfg.agentPool a = pool
    · subst own
      simp only [Net.agentsOf] at away
      exact Registry.waiting_eq_zero_iff.mp (by omega)
    · have housed := (housed_of_reachable h).agents pool a
      exact ⟨fun waits => own (housed (.inr (.inl waits))), fun member => own (housed (.inl member))⟩
  · have counted : 0 < s.net.agentChan.countP (·.2 = a) :=
      List.countP_pos_iff.mpr ⟨_, matched, by simp⟩
    simp only [Net.away] at away
    omega

theorem returned_not_offered_left :
    ∃ s : State (pool 1), Reachable step (Steady 0) .init s ∧ (s.agents 0).phase = .returned ∧
      0 ∉ (s.net.schedulers "pool").agents.members := by
  obtain ⟨s, reached, returned⟩ := exists_of_run step (@Steady (pool 1) 0) .init
    (List.flatten [joins 0, [.agent 0 .done, .scheduler "pool" .removeAgent 0,
      .agent 0 .cancelConfirm]])
    (fun s => (s.agents 0).phase = .returned) (by decide)
  exact ⟨s, reached, returned, ((returned_not_offered 0 reached returned).1 "pool").2⟩

/-- A session ends while its agent is matched with another one, so the agent is on offer again;
then its stream ends, and the answer to the first offer is enough for `Run` to return. -/
theorem returned_offered :
    ∃ s : State (pool 2), Reachable step Unblocked .init s ∧ (s.agents 0).phase = .returned ∧
      0 ∈ (s.net.schedulers "pool").agents.members :=
  exists_of_run step Unblocked .init
    (List.flatten [joins 0, submits 0 0, accepts 0 0, [.scheduler "pool" .addAgent 0],
      starts (pool 2) 0 0, submits 1 0, finishes (pool 2) 0 0, [.scheduler "pool" .addAgent 0,
      .agent 0 .done, .loop 1 0 .agent, .agent 0 .sessionReq]]) _
    (by decide)

end Velda.Broker
