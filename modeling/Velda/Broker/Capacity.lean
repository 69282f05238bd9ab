import Velda.Broker.View

/-! The slots of an agent. An agent is put on offer again whenever a session of it ends
and whenever it accepts a session with a slot to spare. As long as this never
happens while it is on offer, it has at most one offer, and the offer is for a free
slot. -/
namespace Velda.Broker
open Lib

variable {cfg : Config}

namespace Agent

/-- An input with which the agent offers no slot twice: a session ends only while the agent is
not on offer, and a release finds the session held, with no slot left or no offer made. -/
def Spare (g : Agent cfg) (a : AgentPtr) (offers : Nat) : AgentInput → Prop
  | .update m revoked => g.endings m revoked + offers ≤ 1
  | .sessionReq r => r.isRelease cfg = true →
      (g.mySessions.lookup (cfg.key r.session)).isSome = true ∧
        (g.mySessions.size < cfg.slots a → offers = 0)
  | _ => True

instance (g : Agent cfg) (a : AgentPtr) (offers : Nat) (input : AgentInput) :
    Decidable (g.Spare a offers input) := by
  induction input using AgentInput.casesOn <;> unfold Spare <;> infer_instance

lemma room_handle {g : Agent cfg} {offers o : Nat} (spare : g.Spare a offers input)
    (single : offers ≤ 1) (fits : g.mySessions.size + offers ≤ cfg.slots a)
    (read : o + input.consumes cfg = offers) :
    o + (g.handle a input).2.count .addAgent ≤ 1 ∧
      (g.handle a input).1.mySessions.size + (o + (g.handle a input).2.count .addAgent) ≤
        cfg.slots a := by
  have handled := g.handled a input
  generalize g.handle a input = out at handled ⊢
  cases handled with
  | stop =>
    simp only [count_stop, mySessions_stop]
    omega
  | update m revoked =>
    obtain ⟨ended, count⟩ := g.ended_of_update a m revoked
    have size := ended.size
    simp only [Spare] at read spare
    omega
  | @refused r =>
    cases r.accept <;> simp <;> omega
  | released =>
    simp
    omega
  | declined _ _ declined =>
    rw [consumes_of_declined declined] at read
    simp
    omega
  | @accepted r =>
    have size := g.mySessions.size_insert r.session
    have count := (g.count_acceptOutputs a r).1
    simp only [accept] at count ⊢
    rw [count]
    simp only [AgentInput.consumes] at read spare
    by_cases release : r.isRelease cfg = true
    · obtain ⟨held, unoffered⟩ := spare release
      rw [if_pos held] at size
      by_cases free : (g.mySessions.insert r.session).size < cfg.slots a
      · simp [free]
        omega
      · simp [free]
        omega
    · rw [if_neg release] at read
      by_cases free : (g.mySessions.insert r.session).size < cfg.slots a
      · simp [free]
        omega
      · have : (g.mySessions.insert r.session).size ≤ g.mySessions.size + 1 := by
          split at size <;> omega
        simp [free]
        omega
  | _ =>
    simp
    omega

end Agent

/-- The condition for one agent: it connects with no more sessions than it has slots, and
offers no slot twice. -/
def Spare (a : AgentPtr) (s : State cfg) : Action → Prop
  | .register b x => b = a → (s.agents a).mySessions.size < cfg.slots a ∨
      ((s.agents a).mySessions.lookup (cfg.key x)).isSome = true
  | .agent b e => b = a → ∀ r ∈ s.net.takeInput a e, (s.agents a).Spare a (s.net.offers a) r.2
  | _ => True

instance (a : AgentPtr) (s : State cfg) (act : Action) : Decidable (Spare a s act) := by
  induction act using Action.casesOn <;> unfold Spare <;> infer_instance

structure Room (a : AgentPtr) (v : View cfg) : Prop where
  unborn : v.agent.phase.started = false → v.offers = 0
  single : v.offers ≤ 1
  fits : v.agent.mySessions.size + v.offers ≤ cfg.slots a

lemma Room.step {s : State cfg} (blank : (s.view a).Blank) (R : Room a (s.view a))
    (spare : Spare a s act) (h : AgentStep a s act v) : Room a v := by
  obtain ⟨unborn, single, fits⟩ := R
  have slots := cfg.slots_pos a
  simp only [State.view] at unborn single fits
  cases h with
  | untouched => exact ⟨unborn, single, fits⟩
  | connect fresh =>
    have none : s.net.offers a = 0 := unborn (by rw [blank.agent fresh]; rfl)
    exact ⟨fun _ => none, single, by simp [State.view, none]⟩
  | @register x phase =>
    have none := unborn (by rw [phase]; rfl)
    have size := (s.agents a).mySessions.size_insert x
    refine ⟨fun _ => none, single, ?_⟩
    simp only [State.view, size]
    rcases spare rfl with free | held
    · split <;> omega
    · rw [if_pos held]
      omega
  | start phase =>
    have none := unborn (by rw [phase]; rfl)
    refine ⟨fun early => (by cases early), ?_, ?_⟩
    · simp only
      split <;> omega
    · simp only [Agent.launched]
      split <;> omega
  | drop phase => exact ⟨fun _ => unborn (by rw [phase]; rfl), single, fits⟩
  | recv phase => exact ⟨unborn, single, fits⟩
  | turn phase taken read _ =>
    obtain ⟨single', fits'⟩ := Agent.room_handle (spare rfl _ taken) single fits read
    refine ⟨fun early => ?_, single', by simpa using fits'⟩
    rw [Agent.started_settle phase] at early
    cases early
  | @sender f _ granted sent phase queue =>
    have size := (s.agents a).size_runSend_le a granted sent f
    refine ⟨fun early => ?_, single, ?_⟩
    · rw [Agent.phase_runSend, phase] at early
      cases early
    · simp only [State.view]
      omega
  | scheduler moved =>
    have fewer := (moved.waiting_le a).1
    have total := s.net.offers_eq_away a
    refine ⟨fun early => ?_, ?_, ?_⟩
    · have none := unborn early
      simp only
      omega
    · simp only
      omega
    · simp only [State.view]
      omega

/-- The sessions of an agent and its offers never exceed its slots, and it is never offered
twice, as long as it ends no session and gets no release while it is on offer. -/
theorem capacity_kept (a : AgentPtr) {s : State cfg} (h : Reachable step (Spare a) .init s) :
    (s.agents a).mySessions.size + s.net.offers a ≤ cfg.slots a ∧ s.net.offers a ≤ 1 := by
  have room := view_invariant (I := Room a) a ⟨fun _ => rfl, Nat.zero_le 1, Nat.zero_le _⟩
    (fun _ _ _ => Room.step) h
  exact ⟨room.fits, room.single⟩

theorem capacity_kept_two : ∃ s : State (pool 2), Reachable step (Spare 0) .init s ∧
      (s.agents 0).mySessions.entries = [0, 1] ∧
      (s.agents 0).mySessions.size + s.net.offers 0 ≤ 2 ∧ s.net.offers 0 ≤ 1 := by
  obtain ⟨s, reached, held⟩ := exists_of_run step (@Spare (pool 2) 0) .init
    (List.flatten [joins 0, submits 0 0, accepts 0 0, [.scheduler "pool" .addAgent 0], submits 1 0,
      accepts 1 0])
    (fun s => (s.agents 0).mySessions.entries = [0, 1]) (by decide)
  exact ⟨s, reached, held, capacity_kept 0 reached⟩

/-- A session that ends while its agent is on offer puts the agent on offer a second time: with
two slots it takes three sessions. -/
theorem capacity_exceeded :
    ∃ s : State (pool 2), Reachable step Unblocked .init s ∧ (s.agents 0).mySessions.size = 3 :=
  exists_of_run step Unblocked .init
    (List.flatten [joins 0, submits 0 0, accepts 0 0, [.scheduler "pool" .addAgent 0],
      starts (pool 2) 0 0, submits 1 0, finishes (pool 2) 0 0, [.scheduler "pool" .addAgent 0],
      submits 2 0, accepts 1 0, accepts 2 0, [.scheduler "pool" .addAgent 0], submits 3 0,
      accepts 3 0]) _ (by decide)

end Velda.Broker
