import Velda.Broker.Lifetime

/-! Members of a gang after their start. The schedule loop of a member returns when it has
an agent, before that agent has answered; nobody is left to take the answer. So a member
never gets to run, whatever its agent reports. If the agent reports that it could not
start the member, it completes the session itself, and the session ends. -/
namespace Velda.Broker
open Lib List Option Function

variable {cfg : Config}

def ExecutionStatus.active : ExecutionStatus → Bool
  | .running | .stale => true
  | _ => false

def SchedulingState.gathering : SchedulingState → Bool
  | .created | .queueing | .cancelling => true
  | _ => false

/-- The session neither runs nor has a loop that waits for the response of an agent. -/
structure Session.Gathering (y : Session) : Prop where
  idle : y.status.active = false
  loops : ∀ l ∈ y.loops, l.state.gathering = true

variable {s t : State cfg} {x : SessionPtr}

namespace Session.Gathering
variable {y : Session}

lemma fresh : Session.Gathering {} := ⟨rfl, fun _ mem => nomatch mem⟩

lemma finish (G : y.Gathering) (final : FinalState) : (y.finish final).Gathering := by
  refine ⟨?_, G.loops⟩
  rcases y.status_finish final with same | same <;> rw [same] <;> rfl

section Loops
variable {z : Session} (G : y.Gathering) (idle : z.status.active = false) (same : z.loops = y.loops)
include G idle same

lemma endLoop (i : Nat) (l : Loop) : (z.endLoop i l).Gathering := by
  refine ⟨idle, fun k mem => G.loops k ?_⟩
  rw [← same]
  exact mem_of_mem_eraseIdx mem

lemma setLoop (i : Nat) (state : l.state.gathering = true) : (z.setLoop i l).Gathering := by
  refine ⟨idle, fun k mem => ?_⟩
  rcases mem_or_eq_of_mem_set mem with old | rfl
  · exact G.loops k (same ▸ old)
  · exact state

end Loops

lemma start (G : y.Gathering) (ctx : Option Ctx) (rest : List Ctx) :
    ({ y with status := .queueing }.start .created ctx rest).Gathering := by
  refine ⟨rfl, fun l mem => ?_⟩
  rcases mem_append.mp mem with old | new
  · exact G.loops l old
  · rw [mem_singleton.mp new]
    rfl

lemma schedule (G : y.Gathering) (ctx : Ctx) : (y.schedule ctx).Gathering :=
  Session.schedule_rule G (fun _ _ => ⟨G.idle, G.loops⟩) fun _ => G.start

lemma markStale (G : y.Gathering) (r : Request) (done : Ctx → Bool) (time : Time) :
    (y.markStale r done time).Gathering := by
  have idle := G.idle
  unfold Session.markStale
  split
  · next running =>
    rw [running] at idle
    cases idle
  · exact G.start _ _
  · exact G

lemma output (G : y.Gathering) (done : Ctx → Bool) (x : SessionPtr) (o : AgentOutput) :
    (o.onSession cfg done x y).Gathering := by
  cases o with
  | complete z final =>
    simp only [AgentOutput.onSession]
    split
    · exact G.finish final
    · exact G
  | checkpointed z =>
    simp only [AgentOutput.onSession]
    split
    · exact ⟨rfl, G.loops⟩
    · exact G
  | markStale l time =>
    simp only [AgentOutput.onSession]
    split
    · exact G.markStale _ _ _
    · exact G
  | _ => exact G

lemma looped (G : (s.sessions x).Gathering) (member : (cfg.request x).shard.isSome = true)
    (found : (s.sessions x).loops[i]? = some l) (h : LoopStep s x i l e t) :
    (t.sessions x).Gathering := by
  have mine := G.loops l (mem_of_getElem? found)
  have ended (e : Option SchedulingError) (final : FinalState) :
      ((s.sessions x).finishLoop i l e final).Gathering := by
    have kept : Gathering { s.sessions x with schedulingErr := e } := ⟨G.idle, G.loops⟩
    exact (kept.finish final).endLoop (kept.finish final).idle rfl i l
  cases h with
  | noCtx | notReconnected => exact G
  | enqueue state =>
    simp only [State.turned, update_self]
    exact G.setLoop G.idle rfl i rfl
  | nextCtx state =>
    simp only [State.turned, update_self]
    refine G.setLoop ?_ ?_ i ?_
    · exact G.idle
    · rfl
    · exact mine
  | cancelCtx | cancelSignal =>
    simp only [State.turned, update_self]
    refine G.setLoop ?_ ?_ i ?_
    · exact G.idle
    · rfl
    · rfl
  | assign _ single => simp [single] at member
  | hold =>
    simp only [State.turned, State.notifyGang, update_self]
    refine G.endLoop ?_ ?_ i l
    · rfl
    · rfl
  | killSent state | failed state | started state | killStarted state | killDone state
  | reconnectKill state | reconnectedLate state | lost state | reschedule state =>
    rw [state] at mine
    cases mine
  | staleSignal state | staleRefresh _ state | staleShutdown state | staleTimer state
  | reconnected state =>
    rcases state with state | state <;> rw [state] at mine <;> cases mine
  | _ =>
    simp only [State.turned, update_self]
    exact ended _ _

end Session.Gathering

lemma gathering_of_step (h : Step s act t) (member : (cfg.request x).shard.isSome = true)
    (G : (s.sessions x).Gathering) : (t.sessions x).Gathering := by
  refine session_of_step h x G (fun o y G => G.output _ x o) (fun _ _ => .fresh) ?_ ?_ ?_ ?_
  · intro a same _
    subst same
    cases h with
    | register _ _ single => simp [single] at member
  · exact fun ctx _ => G.schedule ctx
  · intro force _
    unfold Session.signal
    split
    · exact G
    · exact ⟨G.idle, G.loops⟩
  · exact fun i l e _ found taken => G.looped member found taken

lemma member_never_runs (member : (cfg.request x).shard.isSome = true)
    (before : (s.sessions x).Gathering) (h : Reachable step Any s t) :
    (t.sessions x).Gathering := by
  refine h.invariant (I := fun s => (s.sessions x).Gathering) before fun s act t G _ taken => ?_
  exact gathering_of_step (step_cases taken).2 member G

/-- What a turn reads of an agent about the start of a session that the agent has. -/
def State.report (s : State cfg) : Action → Option (SessionPtr × Bool)
  | .agent a (.update _) =>
    (s.net.reqChan a).bind fun m => m.sessionInitResponse.bind fun r =>
      ((s.agents a).mySessions.lookup r.1).map fun x => (x, r.2)
  | _ => none

structure Report (cfg : Config) where
  session : SessionPtr
  success : Bool
  after : State cfg

/-- A session that was reported to have started can still get to run; one that was reported to
have failed has ended. -/
def Report.Kept (r : Report cfg) : Prop :=
  (r.success = true →
    ∃ t, Reachable step Any r.after t ∧ (t.sessions r.session).status = .running) ∧
  (r.success = false → (r.after.sessions r.session).status.terminal = true)

structure Watch (cfg : Config) where
  broker : State cfg
  reports : List (Report cfg)

def Watch.step (w : Watch cfg) (act : Action) : Option (Watch cfg) :=
  (Broker.step w.broker act).map fun t =>
    ⟨t, (w.broker.report act).toList.map (fun r => ⟨r.1, r.2, t⟩) ++ w.reports⟩

/-- No send has to wait, and no member of a gang is reported to have started. -/
def NoMemberStarts (w : Watch cfg) (act : Action) : Prop :=
  Unblocked w.broker act ∧
    ∀ r ∈ w.broker.report act, r.2 = true → (cfg.request r.1).shard = none

instance (w : Watch cfg) (act : Action) : Decidable (NoMemberStarts w act) :=
  inferInstanceAs (Decidable (_ ∧ _))

lemma terminal_of_failed (h : Step s act t) (failed : s.report act = some (x, false)) :
    (t.sessions x).status.terminal = true := by
  unfold State.report at failed
  split at failed
  · next a revoked =>
    obtain ⟨m, message, failed⟩ := bind_eq_some_iff.mp failed
    obtain ⟨⟨k, success⟩, init, failed⟩ := bind_eq_some_iff.mp failed
    obtain ⟨y, held, same⟩ := map_eq_some_iff.mp failed
    cases same
    have taken : s.net.takeInput a (.update revoked) =
        some ({ s.net with reqChan := Function.update s.net.reqChan a none },
          .update m revoked) := by
      simp [Net.takeInput, message]
    have turn := Turn.agent taken
    have complete : .complete x .startupFailure ∈
        (Agent.settle a ((s.agents a).handle a (.update m revoked))).2 := by
      have handled : .complete x .startupFailure ∈
          ((s.agents a).handleSessionUpdate a m revoked).2 := by
        obtain ⟨g, first, out, inited, -, eq⟩ := (s.agents a).updated a m revoked
        rw [init] at inited
        rw [eq]
        cases inited with
        | unknown _ missing => simp [missing] at held
        | failed found =>
          cases found.symm.trans held
          simp
      unfold Agent.settle
      split
      · exact mem_append_left _ handled
      · exact handled
    obtain ⟨n, rfl⟩ := turn.performed h
    rw [(sessions_performAll _ a _ x).1]
    exact AgentOutput.terminal_of_complete complete (turn.verdicts.apart x _ complete)
  · cases failed

/-- In a run in which no member of a gang is reported to have started, a member that is
reported to have failed ends. -/
theorem member_report_kept {w : Watch cfg} (h : Reachable Watch.step NoMemberStarts ⟨.init, []⟩ w) :
    ∀ r ∈ w.reports, (cfg.request r.session).shard.isSome = true → r.Kept := by
  refine h.invariant (I := fun w => ∀ r ∈ w.reports,
    (cfg.request r.session).shard.isSome = true → r.Kept) ?_ ?_
  · intro r mem
    cases mem
  intro w act w' before ok taken r mem member
  obtain ⟨t, stepped, rfl⟩ := map_eq_some_iff.mp taken
  rcases mem_append.mp mem with new | old
  · obtain ⟨⟨x, success⟩, read, rfl⟩ := mem_map.mp new
    rw [mem_toList] at read
    refine ⟨fun started => ?_, fun failed => ?_⟩
    · have single := ok.2 (x, success) read started
      simp [single] at member
    · cases failed
      exact terminal_of_failed (step_cases stepped).2 read
  · exact before r old member

def soloGangs : Config :=
  { pool 2 with
    request := fun x => { (pool 2).request x with shard := some ⟨x, 0⟩ }
    desired := fun _ => 2 }

def memberRun (success : Bool) : List Action :=
  joins 0 ++ submits 0 0 ++ [.loop 0 0 .agent, .agent 0 .sessionReq,
    .scheduler "pool" .addAgent 0, .agent 0 .sessionReq, .scheduler "pool" .addAgent 0,
    .sender 0 true true,
    .recv 0 { sessionInitResponse := some (soloGangs.key 0, success) }, .agent 0 (.update true)]

theorem member_report_kept_failure :
    ∃ w : Watch soloGangs, Reachable Watch.step NoMemberStarts ⟨.init, []⟩ w ∧
      w.reports.map (fun r => (r.session, r.success)) = [(0, false)] ∧
      ∀ r ∈ w.reports, (soloGangs.request r.session).shard.isSome = true → r.Kept := by
  obtain ⟨w, reached, read⟩ := exists_of_run Watch.step NoMemberStarts
    (⟨.init, []⟩ : Watch soloGangs) (memberRun false)
    (fun w => w.reports.map (fun r => (r.session, r.success)) = [(0, false)])
    (by decide +kernel)
  exact ⟨w, reached, read, member_report_kept reached⟩

/-- A member whose agent reports that it has started waits for the other shards for ever. -/
theorem member_start_lost :
    ∃ w : Watch soloGangs, Reachable Watch.step (fun w act => Unblocked w.broker act)
        ⟨.init, []⟩ w ∧
      ∃ r ∈ w.reports, (soloGangs.request r.session).shard.isSome = true ∧ r.success = true ∧
        ¬ r.Kept := by
  obtain ⟨w, reached, r, mem, session, success, status, loops⟩ :=
    exists_of_run Watch.step (fun w act => Unblocked w.broker act)
      (⟨.init, []⟩ : Watch soloGangs) (memberRun true)
      (fun w => ∃ r ∈ w.reports, r.session = 0 ∧ r.success = true ∧
        (r.after.sessions 0).status = .waitingForOtherShards ∧ (r.after.sessions 0).loops = [])
      (by decide +kernel)
  refine ⟨w, reached, r, mem, rfl, success, fun kept => ?_⟩
  obtain ⟨t, later, running⟩ := kept.1 success
  have waits : (r.after.sessions 0).Gathering := by
    refine ⟨?_, fun l mem => ?_⟩
    · rw [status]
      rfl
    · rw [loops] at mem
      cases mem
  have idle := (member_never_runs rfl waits later).idle
  rw [session] at running
  rw [running] at idle
  cases idle

end Velda.Broker
