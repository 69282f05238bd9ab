import Velda.Broker.Slots
import Velda.Broker.Withdrawal

/-! Confirmations that nobody waits for. `Run` panics when it reads a confirmation and is
neither stopping nor asked to shut down. A shutdown request is forgotten when a session
is accepted, but the message to the scheduler that went with it is not, so what has to
be followed is every removal of the agent that the scheduler has not read, together with
every confirmation that the agent has not read. -/
namespace Velda.Broker
open Lib

variable {cfg : Config}

namespace Agent

def Leaves (g : Agent cfg) : Prop := g.stopping = true ∨ g.shutdownRequested = true

instance (g : Agent cfg) : Decidable g.Leaves := inferInstanceAs (Decidable (_ ∨ _))

/-- A session takes back a shutdown only when `traces` of it are not left. -/
def TakesBack (g : Agent cfg) (traces : Nat) : AgentInput → Prop
  | .sessionReq r =>
    r.accept = true → g.stopping = false → g.shutdownRequested = true → traces = 0
  | _ => True

instance (g : Agent cfg) (traces : Nat) (input : AgentInput) :
    Decidable (g.TakesBack traces input) := by
  induction input using AgentInput.casesOn <;> unfold TakesBack <;> infer_instance

lemma Ended.leaves (ended : Ended g n h) (leaves : g.Leaves) : h.Leaves :=
  leaves.imp ended.stopping ended.shutdownRequested.trans

lemma leaves_handle {g : Agent cfg} {traces : Nat} (back : g.TakesBack traces input)
    (known : 0 < traces → g.Leaves) (some : 0 < traces + (g.handle a input).2.count .removeAgent) :
    (g.handle a input).1.Leaves := by
  have handled := g.handled a input
  generalize g.handle a input = out at handled some ⊢
  cases handled with
  | stop => exact .inl g.stopping_stop
  | update m revoked =>
    by_cases stopping : (g.handleSessionUpdate a m revoked).1.stopping = true
    · exact .inl stopping
    · rw [count_removeAgent_update (by simpa using stopping)] at some
      exact (g.ended_of_update a m revoked).1.leaves (known some)
  | withdraw => exact .inr rfl
  | refused stopping => exact .inl stopping
  | accepted alive accept =>
    rw [(g.count_acceptOutputs a _).2] at some
    rcases known some with stopping | requested
    · rw [alive] at stopping
      cases stopping
    · rw [back accept alive requested] at some
      cases some
  | _ =>
    exact known (by simpa using some)

lemma leaves_runSend {g : Agent cfg} {granted sent : Bool} {traces : Nat}
    (known : 0 < traces → g.Leaves)
    (some : 0 < traces + (g.runSend a granted sent f).2.count .removeAgent) :
    (g.runSend a granted sent f).1.Leaves := by
  cases f with
  | session x ctx => cases granted <;> cases sent <;> exact known (by simpa [runSend] using some)
  | kill k =>
    cases sent with
    | true => exact known (by simpa [runSend] using some)
    | false => exact .inl g.stopping_stop

end Agent

/-- The removals of an agent that the scheduler has not read, and the confirmations that the agent
has not read. -/
def View.traces (v : View cfg) : Nat := v.leaving + v.confirm

/-- The condition for one agent: it accepts no session with a shutdown pending whose removal is on
its way or confirmed. -/
def TakesBack (a : AgentPtr) (s : State cfg) : Action → Prop
  | .agent b e =>
    b = a → ∀ r ∈ s.net.takeInput a e, (s.agents a).TakesBack (s.view a).traces r.2
  | _ => True

instance (a : AgentPtr) (s : State cfg) (act : Action) : Decidable (TakesBack a s act) := by
  induction act using Action.casesOn <;> unfold TakesBack <;> infer_instance

def View.Accounted (v : View cfg) : Prop := 0 < v.traces → v.agent.Leaves

lemma View.Accounted.step (blank : (s.view a).Blank) (A : (s.view a).Accounted)
    (back : TakesBack a s act) (h : AgentStep a s act v) : v.Accounted := by
  intro some
  cases h with
  | connect fresh =>
    have leaves : (s.agents a).Leaves := A some
    rw [blank.agent fresh] at leaves
    rcases leaves with stopping | requested
    · cases stopping
    · cases requested
  | @turn e n input _ confirm phase taken _ fewer =>
    have handled : ((s.agents a).handle a input).1.Leaves := by
      refine Agent.leaves_handle (back rfl _ taken) A ?_
      simp only [traces, State.view] at some ⊢
      omega
    exact handled.imp (by simp) (by simp)
  | @sender f _ granted sent phase queue =>
    refine Agent.leaves_runSend A ?_
    simp only [traces, State.view] at some ⊢
    omega
  | @scheduler c pick r confirmed matched moved read =>
    have fewer := moved.removes_count a
    refine A ?_
    simp only [traces, State.view, Net.leaving] at some ⊢
    omega
  | _ => exact A some

lemma accounted_of_reachable (h : Reachable step (TakesBack a) .init s) : (s.view a).Accounted :=
  view_invariant a (fun none => absurd none (Nat.lt_irrefl 0))
    (fun _ _ _ blank A back => A.step blank back) h

end Velda.Broker
