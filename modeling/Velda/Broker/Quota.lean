import Velda.Broker.Completion

/-! Quota grants of sessions: `checkQuota`, `returnQuota` and `startQuotaMonitoring` of
`pkg/broker/sessions.go` beside the steps of the broker. A monitoring goroutine reads the grant
of its session, calls `GrantQuota` and stores the new grant with no lock between. -/
namespace Velda.Broker
open Lib

variable {cfg : Config}

/-- Where a monitoring goroutine stands; `waiting` is the `select`, with the channel that
`quotaCheckDone` was when the goroutine came there. -/
inductive Monitor
  | ready
  | asked (previous : Option Nat)
  | stored
  | waiting (done : Option Nat)
  deriving DecidableEq

inductive QuotaCall
  | granted (grant : Nat) (previous : Option Nat)
  | returned (grant : Nat)
  deriving DecidableEq

/-- The quota of a session. Its grants and its channels are numbered in the order in which they
are made; `panicked` is a `close` of a channel that is nil or closed. -/
structure Quota where
  quotaGrant : Option Nat := none
  quotaCheckDone : Option Nat := none
  monitors : List Monitor := []
  closed : List Nat := []
  grants : Nat := 0
  channels : Nat := 0
  /-- Newest first. -/
  calls : List QuotaCall := []
  panicked : Bool := false
  deriving DecidableEq

inductive MonitorEvent
  | ask | grant | refuse | select | timer | done
  deriving DecidableEq

namespace Quota

/-- `GrantQuota` gives a new grant, which is stored. -/
def granted (q : Quota) (previous : Option Nat) : Quota :=
  { q with
    quotaGrant := some q.grants
    grants := q.grants + 1
    calls := .granted q.grants previous :: q.calls }

/-- The loop asks without naming a previous grant. -/
def checkQuota (q : Quota) : Quota := q.granted none

def returnQuota (q : Quota) (startTime : Option Time) : Quota :=
  match q.quotaGrant with
  | none => q
  | some grant =>
    if startTime = none then
      { q with quotaGrant := none, calls := .returned grant :: q.calls }
    else
      match q.quotaCheckDone with
      | none => { q with quotaGrant := none, panicked := true }
      | some done =>
        if done ∈ q.closed then { q with quotaGrant := none, panicked := true }
        else
          { q with
            quotaGrant := none
            closed := done :: q.closed
            calls := .returned grant :: q.calls }

def startQuotaMonitoring (q : Quota) : Quota :=
  { q with
    quotaCheckDone := some q.channels
    channels := q.channels + 1
    monitors := q.monitors ++ [.ready] }

def monitorTurn (q : Quota) (i : Nat) (e : MonitorEvent) : Option Quota :=
  match q.monitors[i]?, e with
  | some .ready, .ask => some { q with monitors := q.monitors.set i (.asked q.quotaGrant) }
  | some (.asked previous), .grant =>
    some { q.granted previous with monitors := q.monitors.set i .stored }
  | some (.asked _), .refuse => some { q with monitors := q.monitors.eraseIdx i }
  | some .stored, .select => some { q with monitors := q.monitors.set i (.waiting q.quotaCheckDone) }
  | some (.waiting _), .timer => some { q with monitors := q.monitors.set i .ready }
  | some (.waiting (some done)), .done =>
    if done ∈ q.closed then some { q with monitors := q.monitors.eraseIdx i } else none
  | _, _ => none

end Quota

def State.starting (s : State cfg) (x : SessionPtr) : Action → Bool
  | .loop y i .response => y = x && (s.sessions x).loops[i]?.any (·.state = .sentToAgent) &&
      (s.net.agentResponse x).head? = some .started
  | _ => false

def Action.asks (x : SessionPtr) : Action → Bool
  | .loop y _ (.quota true) => y = x
  | _ => false

/-- What a step of the broker from `s` to `t` makes of the quota of session `x`; each record of an
execution returns it. -/
def Quota.turn (s t : State cfg) (act : Action) (x : SessionPtr) (q : Quota) : Quota :=
  if act.asks x then q.checkQuota
  else if s.starting x act then q.startQuotaMonitoring
  else ((s.news t).filterMap (Event.record x)).foldl
    (fun q _ => q.returnQuota (s.sessions x).startTime) q

def Event.recorded : Event → Option SessionPtr
  | .recordExecution x _ => some x
  | _ => none

structure Rationed (cfg : Config) where
  broker : State cfg
  quotas : SessionPtr → Quota
  crashed : Bool

inductive RationedAction
  | broker (act : Action)
  | monitor (x : SessionPtr) (i : Nat) (e : MonitorEvent)
  deriving DecidableEq

namespace Rationed

def init : Rationed cfg := ⟨.init, fun _ => {}, false⟩

/-- A panic in one session ends the broker. -/
def turned (m : Rationed cfg) (act : Action) (t : State cfg) : Rationed cfg where
  broker := t
  quotas x := (m.quotas x).turn m.broker t act x
  crashed := (m.broker.news t).any fun e =>
    e.recorded.any fun x => ((m.quotas x).turn m.broker t act x).panicked

/-- A goroutine that is refused a new grant kills its session. -/
def step (m : Rationed cfg) (act : RationedAction) : Option (Rationed cfg) :=
  if m.crashed ∨ m.broker.crashed then none
  else
    match act with
    | .broker act => (Broker.step m.broker act).map (m.turned act)
    | .monitor x i e =>
      ((m.quotas x).monitorTurn i e).bind fun q =>
        if e = .refuse then
          (Broker.step m.broker (.kill x true)).map fun t =>
            { m with broker := t, quotas := Function.update m.quotas x q }
        else some { m with quotas := Function.update m.quotas x q }

inductive Step (m : Rationed cfg) : RationedAction → Rationed cfg → Prop
  | broker {act : Action} {t : State cfg} : Broker.step m.broker act = some t →
      Step m (.broker act) (m.turned act t)
  | refused {x : SessionPtr} {i : Nat} {q : Quota} {t : State cfg} :
      (m.quotas x).monitorTurn i .refuse = some q → Broker.step m.broker (.kill x true) = some t →
      Step m (.monitor x i .refuse)
        { m with broker := t, quotas := Function.update m.quotas x q }
  | monitor {x : SessionPtr} {i : Nat} {e : MonitorEvent} {q : Quota} : e ≠ .refuse →
      (m.quotas x).monitorTurn i e = some q →
      Step m (.monitor x i e) { m with quotas := Function.update m.quotas x q }

lemma step_cases (h : m.step act = some n) : m.crashed = false ∧ Step m act n := by
  unfold step at h
  split at h
  · cases h
  · next alive =>
    refine ⟨by simpa using (not_or.mp alive).1, ?_⟩
    cases act with
    | broker act =>
      obtain ⟨t, taken, rfl⟩ := Option.map_eq_some_iff.mp h
      exact .broker taken
    | monitor x i e =>
      obtain ⟨q, turn, rest⟩ := Option.bind_eq_some_iff.mp h
      split at rest
      · next refused =>
        subst refused
        obtain ⟨t, killed, rfl⟩ := Option.map_eq_some_iff.mp rest
        exact .refused turn killed
      · next other =>
        cases rest
        exact .monitor other turn

lemma broker_reachable {ok : Rationed cfg → RationedAction → Prop} (h : Reachable step ok init m) :
    Reachable Broker.step Any .init m.broker := by
  induction h with
  | start => exact .start
  | next _ _ taken ih =>
    cases (step_cases taken).2 with
    | broker inner => exact .next ih trivial inner
    | refused _ killed => exact .next ih trivial killed
    | monitor => exact ih

end Rationed

end Velda.Broker
