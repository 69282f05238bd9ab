import Velda.Broker.Loop
import Velda.Lib.Run

/-! The steps of a broker. One step is one turn of one goroutine, or one call from
outside: a client, the stream of an agent, the pool manager, or the clock. -/
namespace Velda.Broker
open Lib

variable {cfg : Config}

inductive Action
  | tick
  | cancelCtx (n : Nat)
  | shutdownServer
  | addSession (x : SessionPtr)
  | schedule (x : SessionPtr) (ctx : Ctx)
  | kill (x : SessionPtr) (force : Bool)
  | connect (a : AgentPtr)
  | register (a : AgentPtr) (x : SessionPtr)
  | startAgent (a : AgentPtr)
  | dropAgent (a : AgentPtr)
  | recv (a : AgentPtr) (m : AgentUpdateRequest)
  | requestShutdown (a : AgentPtr)
  | agent (a : AgentPtr) (e : AgentEvent)
  | sender (a : AgentPtr) (granted sent : Bool)
  | scheduler (pool : String) (c : Select) (pick : AgentPtr)
  | loop (x : SessionPtr) (i : Nat) (e : LoopEvent)
  deriving DecidableEq

/-- What a turn of a scheduler puts on the channels of agents and sessions. -/
def Net.deliver (n : Net cfg) (pool : String) (p : Scheduler cfg.agentId cfg.rank)
    (d : Delivery AgentPtr SessionPtr) : Net cfg :=
  { n with
    schedulers := Function.update n.schedulers pool p
    agentChan := n.agentChan ++ d.matched.toList
    agentConfirm := fun a => n.agentConfirm a + if d.agentConfirm = some a then 1 else 0
    sessionConfirm := fun x => n.sessionConfirm x + if d.sessionConfirm = some x then 1 else 0 }

namespace State

/-- A pointer for a new session: nothing was sent to it yet. -/
def Unused (s : State cfg) (x : SessionPtr) : Prop := x ∉ s.created ∧ s.net.agentResponse x = []

instance (s : State cfg) (x : SessionPtr) : Decidable (s.Unused x) :=
  inferInstanceAs (Decidable (_ ∧ _))

def newSession (s : State cfg) (x : SessionPtr) : State cfg :=
  { s with
    sessions := Function.update s.sessions x {}
    created := x :: s.created
    db := s.db.register (cfg.request x) x }

/-- `Session.Reconnect`; `none` where it would wait for a response. -/
def reconnect (s : State cfg) (x : SessionPtr) (a : AgentPtr) : Option (State cfg) :=
  let y := { s.sessions x with agent := some a, lastActiveTime := s.now }
  match (s.sessions x).status with
  | .stale => some (s.modifySession x fun _ =>
      { y with status := .running, staleReconnect := y.generation :: y.staleReconnect })
  | .unspecified =>
    (s.net.takeResponse x).map fun (r, n) =>
      match r with
      | .started => ({ s with net := n } : State cfg).modifySession x fun _ =>
          y.updateFromAgentResponse s.now
      | .error _ => { s with net := n, crashed := true }
  | _ => some (s.modifySession x fun _ => y)

/-- The update that `AgentUpdate` makes for an entry of `CurrentExecutions`. -/
def registerExecution (s : State cfg) (a : AgentPtr) (x : SessionPtr) : Option (State cfg) :=
  let s := s.newSession x
  let g := { s.agents a with mySessions := (s.agents a).mySessions.insert x }
  ((s.performAll a (g.handleSessionInitResponse a (cfg.key x) true)).emit
    (.reGrantAccess a x)).reconnect x a

def registered (s : State cfg) (a : AgentPtr) (x : SessionPtr) : State cfg :=
  { s with
    sessions := Function.update s.sessions x
      { status := .running, agent := some a, startTime := some s.now, lastActiveTime := s.now }
    agents := Function.update s.agents a
      { s.agents a with mySessions := (s.agents a).mySessions.insert x }
    created := x :: s.created
    db := s.db.register (cfg.request x) x
    events := .reGrantAccess a x :: s.events }

lemma registerExecution_eq {s : State cfg} (unused : s.Unused x) :
    s.registerExecution a x = some (s.registered a x) := by
  have net : Function.update s.net.agentResponse x [] = s.net.agentResponse := by
    rw [← unused.2, Function.update_eq_self]
  simp [registerExecution, registered, newSession, Agent.handleSessionInitResponse, performAll,
    perform, modifyNet, emit, reconnect, modifySession, Session.updateFromAgentResponse,
    Net.takeResponse, Net.respond, unused.2, net]

def startAgent (s : State cfg) (a : AgentPtr) : State cfg :=
  let g := s.agents a
  let idle : Bool := g.mySessions.size = 0
  s.performAll a ({ g with phase := .running, receiving := g.receiving || idle },
    (if idle then [.addAgent] else []) ++ [.log (.notifyAgentAvailable a (!idle) (g.freeSlots a))])

def schedulerTurn (s : State cfg) (pool : String) (c : Select) (pick : AgentPtr) :
    Option (State cfg) :=
  if c = .cancelled ∧ s.serverDone = false then none
  else ((s.net.schedulers pool).turn c pick).map fun (p, d) =>
    s.modifyNet (·.deliver pool p d)

end State

def step (s : State cfg) (act : Action) : Option (State cfg) :=
  if s.crashed then none
  else
    match act with
    | .tick => some { s with now := s.now + 1 }
    | .cancelCtx n => some { s with cancelledCtx := n :: s.cancelledCtx }
    | .shutdownServer => some { s with serverDone := true }
    | .addSession x =>
      if s.Unused x ∧ (cfg.key x).sessionId ≠ "" ∧ s.db.sessions (cfg.key x) = none then
        some (s.newSession x)
      else none
    | .schedule x ctx =>
      if x ∈ s.created then some (s.turned x ((s.sessions x).schedule ctx) s.net false [])
      else none
    | .kill x force => if x ∈ s.created then some (s.kill x force).1 else none
    | .connect a =>
      if a ∉ s.connected then
        some { s.modifyAgent a fun _ => { phase := .registering } with
          connected := a :: s.connected }
      else none
    | .register a x =>
      if (s.agents a).phase = .registering ∧ s.Unused x ∧ (cfg.key x).sessionId ≠ "" ∧
          cfg.scheduler x = cfg.agentPool a ∧ (cfg.request x).shard = none then
        s.registerExecution a x
      else none
    | .startAgent a =>
      if (s.agents a).phase = .registering then some (s.startAgent a) else none
    | .dropAgent a =>
      if (s.agents a).phase = .registering then
        some (s.modifyAgent a fun g => { g with phase := .dropped })
      else none
    | .recv a m =>
      if (s.agents a).phase = .running ∧ s.net.reqChan a = none then
        some ((s.modifyNet fun n =>
          { n with reqChan := Function.update n.reqChan a (some m) }).modifyAgent a fun g =>
            { g with lastMessageTime := s.now })
      else none
    | .requestShutdown a =>
      if (s.agents a).phase = .running then
        some (s.modifyNet fun n =>
          { n with statusChan := Function.update n.statusChan a (n.statusChan a + 1) })
      else none
    | .agent a e => s.agentTurn a e
    | .sender a granted sent => s.senderTurn a granted sent
    | .scheduler pool c pick => s.schedulerTurn pool c pick
    | .loop x i e => s.loopTurn x i e

inductive Step (s : State cfg) : Action → State cfg → Prop
  | tick : Step s .tick { s with now := s.now + 1 }
  | cancelCtx (n : Nat) : Step s (.cancelCtx n) { s with cancelledCtx := n :: s.cancelledCtx }
  | shutdownServer : Step s .shutdownServer { s with serverDone := true }
  | addSession {x : SessionPtr} : s.Unused x → s.db.sessions (cfg.key x) = none →
      Step s (.addSession x) (s.newSession x)
  | schedule {x : SessionPtr} (ctx : Ctx) : x ∈ s.created →
      Step s (.schedule x ctx) (s.turned x ((s.sessions x).schedule ctx) s.net false [])
  | killCrash {x : SessionPtr} (force : Bool) : x ∈ s.created →
      (s.sessions x).status = .running → (s.sessions x).agent = none →
      Step s (.kill x force) { s with crashed := true }
  | killRunning {x : SessionPtr} {a : AgentPtr} (force : Bool) : x ∈ s.created →
      (s.sessions x).status = .running → s.heldBy x = some a →
      Step s (.kill x force) (s.turned x (s.sessions x)
        (s.net.requestKill a ⟨cfg.key x, force⟩) false
        [.killed x .running, .requestKill a ⟨cfg.key x, force⟩])
  | killSignal {x : SessionPtr} (force : Bool) : x ∈ s.created →
      (s.sessions x).status = .queueing ∨ (s.sessions x).status = .waitingForOtherShards ∨
        (s.sessions x).status = .stale →
      Step s (.kill x force) (s.turned x (s.sessions x).signal s.net false
        [.killed x (s.sessions x).status])
  | killRefused {x : SessionPtr} (force : Bool) : x ∈ s.created → Step s (.kill x force) s
  | connect {a : AgentPtr} : a ∉ s.connected →
      Step s (.connect a) { s.modifyAgent a fun _ => { phase := .registering } with
        connected := a :: s.connected }
  | register {a : AgentPtr} {x : SessionPtr} : (s.agents a).phase = .registering →
      s.Unused x → (cfg.request x).shard = none → Step s (.register a x) (s.registered a x)
  | startAgent {a : AgentPtr} : (s.agents a).phase = .registering →
      Step s (.startAgent a) (s.startAgent a)
  | dropAgent {a : AgentPtr} : (s.agents a).phase = .registering →
      Step s (.dropAgent a) (s.modifyAgent a fun g => { g with phase := .dropped })
  | recv {a : AgentPtr} (m : AgentUpdateRequest) : (s.agents a).phase = .running →
      s.net.reqChan a = none →
      Step s (.recv a m) ((s.modifyNet fun n => { n with
        reqChan := Function.update n.reqChan a (some m) }).modifyAgent a fun g =>
          { g with lastMessageTime := s.now })
  | requestShutdown {a : AgentPtr} : (s.agents a).phase = .running →
      Step s (.requestShutdown a) (s.modifyNet fun n => { n with
        statusChan := Function.update n.statusChan a (n.statusChan a + 1) })
  | agent {a : AgentPtr} {e : AgentEvent} {n : Net cfg} {input : AgentInput} :
      (s.agents a).phase = .running → s.net.takeInput a e = some (n, input) →
      Step s (.agent a e) (({ s with net := n } : State cfg).performAll a
        (Agent.settle a ((s.agents a).handle a input)))
  | sender {a : AgentPtr} {f : Send} {rest : List Send} (granted sent : Bool) :
      (s.agents a).phase.started = true →
      s.net.resChan a = f :: rest →
      Step s (.sender a granted sent) (({ s with net := { s.net with
        resChan := Function.update s.net.resChan a rest } } : State cfg).performAll a
          ((s.agents a).runSend a granted sent f))
  | scheduler {pool : String} {c : Select} {pick : AgentPtr}
      {p : Scheduler cfg.agentId cfg.rank} {d : Delivery AgentPtr SessionPtr} :
      (c = .cancelled → s.serverDone = true) →
      (s.net.schedulers pool).turn c pick = some (p, d) →
      Step s (.scheduler pool c pick) (s.modifyNet (·.deliver pool p d))
  | loop {x : SessionPtr} {i : Nat} {l : Loop} {e : LoopEvent} {t : State cfg} :
      (s.sessions x).loops[i]? = some l → LoopStep s x i l e t → Step s (.loop x i e) t

lemma step_of_kill (force : Bool) (known : x ∈ s.created) :
    Step s (.kill x force) (s.kill x force).1 := by
  unfold State.kill
  split
  · next running =>
    split
    · next none => exact .killCrash force known running none
    · split
      · next held => exact .killRunning force known running held
      · exact .killRefused force known
  · next queueing => exact .killSignal force known (.inl queueing)
  · next waiting => exact .killSignal force known (.inr (.inl waiting))
  · next stale => exact .killSignal force known (.inr (.inr stale))
  · exact .killRefused force known

lemma step_cases {s t : State cfg} (h : step s act = some t) :
    s.crashed = false ∧ Step s act t := by
  unfold step at h
  split at h
  · cases h
  · next alive =>
    refine ⟨by simpa using alive, ?_⟩
    cases act with
    | tick =>
      cases h
      exact .tick
    | cancelCtx n =>
      cases h
      exact .cancelCtx n
    | shutdownServer =>
      cases h
      exact .shutdownServer
    | addSession x =>
      simp only at h
      split at h
      · next ok =>
        cases h
        exact .addSession ok.1 ok.2.2
      · cases h
    | schedule x ctx =>
      simp only at h
      split at h
      · next known =>
        cases h
        exact .schedule ctx known
      · cases h
    | kill x force =>
      simp only at h
      split at h
      · next known =>
        cases h
        exact step_of_kill force known
      · cases h
    | connect a =>
      simp only at h
      split at h
      · next fresh =>
        cases h
        exact .connect fresh
      · cases h
    | register a x =>
      simp only at h
      split at h
      · next ok =>
        rw [State.registerExecution_eq ok.2.1] at h
        cases h
        exact .register ok.1 ok.2.1 ok.2.2.2.2
      · cases h
    | startAgent a =>
      simp only at h
      split at h
      · next phase =>
        cases h
        exact .startAgent phase
      · cases h
    | dropAgent a =>
      simp only at h
      split at h
      · next phase =>
        cases h
        exact .dropAgent phase
      · cases h
    | recv a m =>
      simp only at h
      split at h
      · next ok =>
        cases h
        exact .recv m ok.1 ok.2
      · cases h
    | requestShutdown a =>
      simp only at h
      split at h
      · next phase =>
        cases h
        exact .requestShutdown phase
      · cases h
    | agent a e =>
      simp only [State.agentTurn] at h
      split at h
      · next phase =>
        obtain ⟨⟨n, input⟩, taken, rfl⟩ := Option.map_eq_some_iff.mp h
        exact .agent phase taken
      · cases h
    | sender a granted sent =>
      simp only [State.senderTurn] at h
      split at h
      · next phase =>
        split at h
        · cases h
        · next f rest queue =>
          cases h
          exact .sender granted sent phase queue
      · cases h
    | scheduler pool c pick =>
      simp only [State.schedulerTurn] at h
      split at h
      · cases h
      · next ok =>
        obtain ⟨⟨p, d⟩, turned, rfl⟩ := Option.map_eq_some_iff.mp h
        refine .scheduler (fun cancelled => ?_) turned
        simpa [cancelled] using ok
    | loop x i e =>
      obtain ⟨l, found, taken⟩ := loopStep_of_turn h
      exact .loop found taken

namespace State

structure Buffered (s : State cfg) : Prop where
  schedulers : ∀ pool ∈ s.connected.map cfg.agentPool ++ s.created.map cfg.scheduler,
    (s.net.schedulers pool).agents.adds.length ≤ 1 ∧
      (s.net.schedulers pool).agents.removes.length ≤ 1 ∧
      (s.net.schedulers pool).sessions.adds.length ≤ 1 ∧
      (s.net.schedulers pool).sessions.removes.length ≤ 1
  agents : ∀ a ∈ s.connected, (s.net.sessionReq a).length ≤ cfg.slots a ∧
    s.net.agentConfirm a ≤ 1 ∧ s.net.statusChan a ≤ 1 ∧ (s.net.killChan a).length ≤ 1 ∧
      (s.net.resChan a).length ≤ 1
  sessions : ∀ x ∈ s.created, s.net.agentChan.countP (·.1 = x) ≤ 1 ∧
    s.net.sessionConfirm x ≤ 1 ∧ (s.net.agentResponse x).length ≤ 1

instance (s : State cfg) : Decidable s.Buffered :=
  decidable_of_iff (_ ∧ _ ∧ _) ⟨fun h => ⟨h.1, h.2.1, h.2.2⟩, fun h => ⟨h.1, h.2, h.3⟩⟩

end State

def Unblocked (s : State cfg) (act : Action) : Prop := ∀ t ∈ step s act, t.Buffered

instance (s : State cfg) (act : Action) : Decidable (Unblocked s act) :=
  inferInstanceAs (Decidable (∀ t ∈ step s act, t.Buffered))

/-! Sequences of actions of one pool, for runs with given agents and sessions. -/
section Runs

def pool (slots : Int) : Config where
  agent a := ⟨toString a, "pool", slots⟩
  request x := { key := ⟨1, toString x⟩, pool := "pool", scheduler := "pool" }
  desired _ := 0

def joins (a : AgentPtr) : List Action := [.connect a, .startAgent a, .scheduler "pool" .addAgent a]

def submits (x : SessionPtr) (a : AgentPtr) : List Action :=
  [.addSession x, .schedule x (.caller x), .loop x 0 (.quota true), .scheduler "pool" .addSession a]

def accepts (x : SessionPtr) (a : AgentPtr) : List Action :=
  [.loop x 0 .agent, .agent a .sessionReq, .sender a true true]

def starts (cfg : Config) (x : SessionPtr) (a : AgentPtr) : List Action :=
  [.recv a { sessionInitResponse := some (cfg.key x, true) }, .agent a (.update true),
    .loop x 0 .response]

def finishes (cfg : Config) (x : SessionPtr) (a : AgentPtr) : List Action :=
  [.recv a { sessionCompletion := some ⟨cfg.key x, false, false⟩ }, .agent a (.update true)]

end Runs

end Velda.Broker
