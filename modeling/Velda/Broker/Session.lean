import Velda.Broker.State

/-! Methods of `Session` and of `GangCoordinator`: `pkg/broker/sessions.go` without the
schedule loop, and `pkg/broker/gang_coordinator.go`. -/
namespace Velda.Broker
open Lib

variable {cfg : Config}

namespace Session

/-- `go s.scheduleLoop(state)` with new channels, once the loop has popped its context. -/
def start (x : Session) (state : SchedulingState) (ctx : Option Ctx) (rest : List Ctx) : Session :=
  { x with
    generation := x.generation + 1
    loops := x.loops ++ [⟨state, ctx, x.generation + 1⟩]
    scheduleCtx := rest
    schedulingErr := none }

/-- The context of a stale session is replaced when there is none or it is done. -/
def refresh (done : Ctx → Bool) (x : Session) (i : Nat) (l : Loop) : Session :=
  if l.ctx.all done then
    { x with
      scheduleCtx := x.scheduleCtx.tail
      loops := x.loops.set i { l with ctx := x.scheduleCtx.head? } }
  else { x with loops := x.loops.set i l }

def setLoop (x : Session) (i : Nat) (l : Loop) : Session := { x with loops := x.loops.set i l }

/-- A loop that returns with a context drops the contexts that wait behind it. -/
def endLoop (x : Session) (i : Nat) (l : Loop) : Session :=
  { x with
    loops := x.loops.eraseIdx i
    scheduleCtx := if l.ctx.isSome then [] else x.scheduleCtx }

def schedule (x : Session) (ctx : Ctx) : Session :=
  match x.status with
  | .running | .waitingForOtherShards | .terminated | .cancelled => x
  | .checkpointed | .unspecified =>
    let ctxs := x.scheduleCtx ++ [ctx]
    { x with status := .queueing }.start .created ctxs.head? ctxs.tail
  | .queueing | .stale => { x with scheduleCtx := x.scheduleCtx ++ [ctx] }

lemma schedule_rule {I : Session → Prop} (same : I x)
    (queued : x.status = .queueing ∨ x.status = .stale → ∀ rest, I { x with scheduleCtx := rest })
      (started : x.status = .checkpointed ∨ x.status = .unspecified → ∀ c rest, I ({ x with status
      := .queueing }.start .created c rest)) : I (x.schedule ctx) := by
  unfold schedule
  split
  · exact same
  · exact same
  · exact same
  · exact same
  · next status => exact started (.inl status) _ _
  · next status => exact started (.inr status) _ _
  · next status => exact queued (.inl status) _
  · next status => exact queued (.inr status) _

/-- A task is scheduled again on its own, under the context of the server. -/
def rescheduleCtx (r : Request) : List Ctx := if r.taskId = "" then [] else [.server]

/-- A stale loop pops a context, and another one if the first is done. -/
def popStale (done : Ctx → Bool) : List Ctx → Option Ctx × List Ctx
  | [] => (none, [])
  | c :: rest => if done c then (rest.head?, rest.tail) else (some c, rest)

def markStale (r : Request) (done : Ctx → Bool) (lastActiveTime : Time) (x : Session) : Session :=
  let ctxs := x.scheduleCtx ++ rescheduleCtx r
  match x.status with
  | .running =>
    if x.lastActiveTime < lastActiveTime then
      { x with status := .stale, lastActiveTime := lastActiveTime }.start .stale
        (popStale done ctxs).1 (popStale done ctxs).2
    else x
  | .waitingForOtherShards => { x with status := .queueing }.start .created ctxs.head? ctxs.tail
  | _ => x

def updateFromAgentResponse (now : Time) (x : Session) : Session :=
  { x with status := .running, startTime := some (x.startTime.getD now) }

def finish (final : FinalState) (x : Session) : Session :=
  { x with status := if final = .cancelled then .cancelled else .terminated }

/-- The signal is dropped when the channel already holds one. -/
def signal (x : Session) : Session :=
  if x.generation = 0 ∨ x.generation ∈ x.cancelSignal then x
  else { x with cancelSignal := x.generation :: x.cancelSignal }

def takeSignal (x : Session) (generation : Nat) : Session :=
  { x with cancelSignal := x.cancelSignal.erase generation }

end Session

namespace GangCoordinator

/-- The second component is what runs now. -/
def notify (desired : Nat) (g : GangCoordinator cfg) (id : Int) (f : Callback cfg) :
    GangCoordinator cfg × List (Callback cfg) :=
  let notif := g.notif.insert (id, f)
  if notif.size = desired ∧ g.triggered = false then
    (⟨notif, true⟩, notif.entries.map (·.2))
  else (⟨notif, g.triggered⟩, [])

def unnotify (g : GangCoordinator cfg) (id : Int) : GangCoordinator cfg :=
  if g.triggered then { g with notif := g.notif.erase id } else g

def leave (g : GangPtr) (c : GangCoordinator cfg) (x : SessionPtr) : GangCoordinator cfg :=
  match (cfg.request x).shard with
  | some shard => if shard.gang = g then c.unnotify shard.shardIndex else c
  | none => c

end GangCoordinator

namespace State

def complete (s : State cfg) (x : SessionPtr) (final : FinalState) : State cfg :=
  { s with
    sessions := Function.update s.sessions x ((s.sessions x).finish final)
    db := s.db.remove (cfg.request x)
    events := .recordExecution x final :: s.events }

def checkpointed (s : State cfg) (x : SessionPtr) : State cfg :=
  { s with
    sessions := Function.update s.sessions x { s.sessions x with status := .checkpointed }
    events := .recordExecution x .checkpointed :: s.events }

/-- The state after a call or a turn of a loop of session `x` that gives the session `y` and the
channels `n`, calls `Complete` or not, and leaves the events `evs`. -/
def turned (s : State cfg) (x : SessionPtr) (y : Session) (n : Net cfg) (completed : Bool)
    (evs : List Event) : State cfg :=
  { s with
    sessions := Function.update s.sessions x y
    net := n
    db := if completed then s.db.remove (cfg.request x) else s.db
    events := evs ++ s.events }

def news (s t : State cfg) : List Event :=
  (t.events.take (t.events.length - s.events.length)).reverse

lemma news_eq {s t : State cfg} (h : t.events = l ++ s.events) : s.news t = l.reverse := by
  simp [news, h]

lemma forall_news {s t : State cfg} {P : Event → Prop} (h : t.events = l ++ s.events)
    (each : ∀ e ∈ l, P e) : ∀ e ∈ s.news t, P e := by
  intro e mem
  rw [news_eq h] at mem
  exact each e (List.mem_reverse.mp mem)

lemma news_turned (s : State cfg) (x : SessionPtr) (y : Session) (n : Net cfg)
    (completed : Bool) (evs : List Event) : s.news (s.turned x y n completed evs) = evs.reverse :=
  news_eq rfl

/-- The agent of a session, if `Agent.RequestKill` finds the session in it. -/
def heldBy (s : State cfg) (x : SessionPtr) : Option AgentPtr :=
  (s.sessions x).agent.filter fun a => ((s.agents a).mySessions.lookup (cfg.key x)).isSome

/-- The second component says whether `Kill` returned nil. -/
def kill (s : State cfg) (x : SessionPtr) (force : Bool) : State cfg × Bool :=
  match (s.sessions x).status with
  | .running =>
    if (s.sessions x).agent = none then ({ s with crashed := true }, false)
    else
      match s.heldBy x with
      | some a =>
        (s.turned x (s.sessions x) (s.net.requestKill a ⟨cfg.key x, force⟩) false
          [.killed x .running, .requestKill a ⟨cfg.key x, force⟩], true)
      | none => (s, false)
  | .queueing | .waitingForOtherShards | .stale =>
    (s.turned x (s.sessions x).signal s.net false [.killed x (s.sessions x).status], true)
  | _ => (s, false)

/-- `MarkStale` of each session of a list; calls for different sessions do not interfere. -/
def markStale (s : State cfg) (l : List SessionPtr) (lastActiveTime : Time) : State cfg :=
  { s with
    sessions := fun x =>
      if x ∈ l then (s.sessions x).markStale (cfg.request x) s.ctxDone lastActiveTime
      else s.sessions x
    gangs := fun g =>
      (l.filter fun x => (s.sessions x).status = .waitingForOtherShards).foldl
        (GangCoordinator.leave g) (s.gangs g) }

/-- The requests that callbacks send to the agents of their sessions, which were set before
the callbacks were registered. -/
def releases (s : State cfg) (l : List (Callback cfg)) : List (AgentPtr × SessionRequest) :=
  l.filterMap fun
    | .cleanup => none
    | .release x _ ctx => (s.sessions x).agent.map fun a => (a, ⟨x, ctx, true, false⟩)

def notifyGang (s : State cfg) (shard : Shard) (f : Callback cfg) : State cfg :=
  let (g, run) := (s.gangs shard.gang).notify (cfg.desired shard.gang) shard.shardIndex f
  { s with
    gangs := Function.update s.gangs shard.gang g
    net := (s.releases run).foldl (fun n (a, r) => n.request a r) s.net }

end State

end Velda.Broker
