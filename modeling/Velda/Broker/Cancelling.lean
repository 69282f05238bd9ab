import Velda.Broker.SessionView

/-! Sessions that leave the queue. A loop that cancels waits for a confirmation of the
scheduler or for a match that was made before; while the session is queued, one of the
two will come. -/
namespace Velda.Broker
open Lib List Function State Net

variable {cfg : Config}

variable {x : SessionPtr} {s t : State cfg} {y : Session} {l : Loop} {tokens : Nat} {n : Net cfg}
  {act : Action}

namespace Net

lemma tokens_addSession (n : Net cfg) (x : SessionPtr) :
    (n.addSession x).tokens x = n.tokens x + 1 := by
  simp only [tokens, addSession, modifyScheduler, update_self, Registry.waiting_sendAdd,
    if_true]
  omega

lemma tokens_addSession_of_ne (n : Net cfg) {y : SessionPtr} (other : x ≠ y) :
    (n.addSession y).tokens x = n.tokens x := by
  unfold tokens addSession modifyScheduler
  by_cases pool : cfg.scheduler x = cfg.scheduler y
  · simp [pool, Ne.symm other]
  · simp [update_of_ne pool]

@[simp] lemma tokens_removeSession (n : Net cfg) (x y : SessionPtr) :
    (n.removeSession y).tokens x = n.tokens x := by
  unfold tokens removeSession modifyScheduler
  by_cases pool : cfg.scheduler x = cfg.scheduler y
  · simp [pool]
  · simp [update_of_ne pool]

lemma tokens_agents (n : Net cfg) (pool : String) (r : Registry cfg.agentId) (x : SessionPtr) :
    (n.modifyScheduler pool fun p => { p with agents := r }).tokens x = n.tokens x := by
  unfold tokens modifyScheduler
  by_cases same : cfg.scheduler x = pool
  · simp [same]
  · simp [update_of_ne same]

lemma tokens_takeAgent {y : SessionPtr} (h : n.takeAgent y = some (a, m)) (other : x ≠ y) :
    m.tokens x = n.tokens x := by
  obtain ⟨rest, rfl, perm⟩ := takeAgent_perm h
  simp [tokens, perm.countP_eq, Ne.symm other]

lemma tokens_takeInput (h : n.Received a e m input) (x : SessionPtr) : m.tokens x = n.tokens x := by
  cases h <;> rfl

lemma tokens_deliver {pool : String} (h : (n.schedulers pool).turn c pick = some (p, d))
    (keeps : pool = cfg.scheduler x → (n.schedulers pool).sessions.Keeps x)
    (waits : 0 < n.tokens x) : 0 < (n.deliver pool p d).tokens x := by
  have moved := (Scheduler.turn_moves h).2
  have chan : (n.agentChan ++ d.matched.toList).countP (·.1 = x) =
      n.agentChan.countP (·.1 = x) + if d.matched.map (·.1) = some x then 1 else 0 := by
    cases d.matched <;> simp
  by_cases same : pool = cfg.scheduler x
  · subst same
    simp only [tokens, deliver, update_self] at waits ⊢
    rcases Nat.eq_zero_or_pos ((n.schedulers (cfg.scheduler x)).sessions.waiting x) with none | some
    · omega
    · have kept := moved.waiting_pos (keeps rfl) some
      omega
  · simp only [tokens, deliver, update_of_ne (Ne.symm same)] at waits ⊢
    omega

end Net

lemma tokens_perform (a : AgentPtr) (s : State cfg) (o : AgentOutput) (x : SessionPtr) :
    (s.perform a o).net.tokens x = s.net.tokens x := by
  cases o with
  | addAgent | removeAgent => exact tokens_agents _ _ _ _
  | _ => rfl

lemma tokens_performAll (s : State cfg) (a : AgentPtr) (r : Agent cfg × List AgentOutput)
    (x : SessionPtr) : (s.performAll a r).net.tokens x = s.net.tokens x :=
  performAll_rule (P := fun u => u.net.tokens x = s.net.tokens x) rfl
    fun u o same => (tokens_perform a u o x).trans same

lemma tokens_loopStep {y : SessionPtr} (h : LoopStep s y i l e t) (other : x ≠ y) :
    t.net.tokens x = s.net.tokens x := by
  cases h with
  | enqueue => exact tokens_addSession_of_ne _ other
  | cancelCtx | cancelSignal => exact tokens_removeSession _ _ _
  | assign _ _ taken | declined _ taken =>
    have moved := tokens_takeAgent taken other
    exact moved
  | hold _ _ taken =>
    have moved := tokens_takeAgent taken other
    simp only [notifyGang]
    rw [requests_eq]
    exact moved
  | failed _ taken | started _ taken | killDone _ taken | killStarted _ taken =>
    obtain ⟨rest, -, rfl⟩ := takeResponse_cases taken
    rfl
  | confirmed => simp [turned, tokens, update_of_ne other]
  | _ => rfl

lemma tokens_of_step (h : Step s act t) (other : ∀ i e, act ≠ .loop x i e)
    (keeps : ∀ c pick, act = .scheduler (cfg.scheduler x) c pick →
      (s.net.schedulers (cfg.scheduler x)).sessions.Keeps x) (waits : 0 < s.net.tokens x) :
    0 < t.net.tokens x := by
  cases h with
  | startAgent | sender =>
    simp only [startAgent, tokens_performAll]
    exact waits
  | agent _ taken =>
    rw [tokens_performAll, tokens_takeInput (received taken)]
    exact waits
  | scheduler _ turned =>
    exact tokens_deliver turned (fun same => by subst same; exact keeps _ _ rfl) waits
  | @loop y i l e _ found taken =>
    rw [tokens_loopStep taken fun same => other i e (by rw [same])]
    exact waits
  | _ => exact waits

/-- The loops of a session that wait for the scheduler have something to wait for. -/
def Session.Covered (tokens : Nat) (y : Session) : Prop :=
  ∀ l ∈ y.loops, l.state ≠ .awaitingKill ∧
    (l.state = .queueing ∨ l.state = .cancelling → 0 < tokens)

/-- A kill is not read while the agent has the session, and the scheduler puts no other session
in its place. -/
def Queued (x : SessionPtr) (s : State cfg) : Action → Prop
  | .loop y i .cancelSignal => y = x →
      ∀ l ∈ (s.sessions x).loops[i]?, l.state ≠ .sentToAgent
  | .scheduler p _ _ => p = cfg.scheduler x → (s.net.schedulers p).sessions.Keeps x
  | act => Resumed x s act

instance (x : SessionPtr) (s : State cfg) (act : Action) : Decidable (Queued x s act) := by
  induction act using Action.casesOn with
  | loop y i e => induction e using LoopEvent.casesOn <;> unfold Queued <;> infer_instance
  | _ => unfold Queued; infer_instance

lemma Queued.resumed (h : Queued x s act) : Resumed x s act := by
  unfold Queued at h
  split at h
  · trivial
  · trivial
  · exact h

lemma Session.Covered.of_start (C : y.Covered tokens) (fresh : state = .created ∨ state = .stale) :
    (y.start state ctx rest).Covered tokens := by
  intro l mem
  rcases mem_append.mp mem with old | new
  · exact C l old
  · rw [mem_singleton.mp new]
    rcases fresh with rfl | rfl <;> simp

lemma Session.Covered.output (C : y.Covered tokens) (done : Ctx → Bool) (x : SessionPtr)
    (o : AgentOutput) : (o.onSession cfg done x y).Covered tokens := by
  cases o with
  | complete z final =>
    simp only [AgentOutput.onSession]
    split <;> exact C
  | checkpointed z =>
    simp only [AgentOutput.onSession]
    split <;> exact C
  | markStale l time =>
    simp only [AgentOutput.onSession]
    split
    · unfold Session.markStale
      split
      · split
        · exact Session.Covered.of_start C (.inr rfl)
        · exact C
      · exact Session.Covered.of_start C (.inl rfl)
      · exact C
    · exact C
  | _ => exact C

lemma Session.Covered.of_loops (loops : y.loops = [l]) (kill : l.state ≠ .awaitingKill)
    (waits : l.state = .queueing ∨ l.state = .cancelling → 0 < tokens) : y.Covered tokens := by
  intro m mem
  rw [loops, mem_singleton] at mem
  subst mem
  exact ⟨kill, waits⟩

lemma Session.Covered.of_none (loops : y.loops = []) : y.Covered tokens := by
  intro l mem
  rw [loops] at mem
  cases mem

lemma Session.Covered.refresh (tokens : Nat) (done : Ctx → Bool) (loops : y.loops = [l])
    (stale : m.state = .stale ∨ m.state = .staleCancelled) :
    (y.refresh done 0 m).Covered tokens := by
  have idle : m.state ≠ .awaitingKill ∧ ¬ (m.state = .queueing ∨ m.state = .cancelling) := by
    rcases stale with stale | stale <;> simp [stale]
  unfold Session.refresh
  split
  · exact .of_loops (l := { m with ctx := y.scheduleCtx.head? }) (by simp [loops]) idle.1
      fun waits => absurd waits idle.2
  · exact .of_loops (by simp [loops]) idle.1 fun waits => absurd waits idle.2

lemma Session.Covered.looped (S : (s.sessions x).Sound)
    (C : (s.sessions x).Covered (s.net.tokens x)) (found : (s.sessions x).loops[i]? = some l)
    (h : LoopStep s x i l e t) (queued : Queued x s (.loop x i e)) :
    (t.sessions x).Covered (t.net.tokens x) := by
  obtain ⟨rfl, loops⟩ := S.loops_eq found
  obtain ⟨kill, waits⟩ := C l (by simp [loops])
  cases h with
  | noCtx | notReconnected => exact C
  | hold | started =>
    exact .of_none
      (by simp [turned, notifyGang, updateFromAgentResponse, endLoop, loops])
  | enqueue =>
    refine .of_loops (by simp [turned, setLoop, loops]; rfl) (by simp) fun _ => ?_
    rw [turned, tokens_addSession]
    exact Nat.succ_pos _
  | nextCtx state =>
    refine .of_loops (by simp [turned, loops]; rfl) (by simp [state]) fun _ => ?_
    exact waits (.inl state)
  | cancelCtx state | cancelSignal state =>
    refine .of_loops (by simp [turned, takeSignal, loops]; rfl) (by simp)
      fun _ => ?_
    rw [turned, tokens_removeSession]
    exact waits (.inl state)
  | assign | staleTimer | reschedule =>
    refine .of_loops (by simp [turned, setLoop, loops]; rfl) (by simp) fun waits => ?_
    simp at waits
  | killSent state => exact absurd state (queued rfl l found)
  | killStarted state | killDone state => exact absurd state kill
  | staleSignal =>
    have refreshed := Session.Covered.refresh (s.net.tokens x) s.ctxDone
      (y := { (s.sessions x).takeSignal l.generation with schedulingErr := some .killed })
      (m := { l with state := .staleCancelled }) loops (.inr rfl)
    simpa [turned] using refreshed
  | staleRefresh _ state =>
    simpa [turned] using Session.Covered.refresh (s.net.tokens x) s.ctxDone loops state
  | reconnected _ mem | reconnectKill _ mem | reconnectedLate _ _ mem =>
    rw [S.reconnect] at mem
    cases mem
  | _ =>
    exact .of_none (by simp [turned, finishLoop, finish, endLoop, loops])

lemma Session.Covered.step (S : (s.sessions x).Sound)
    (C : (s.sessions x).Covered (s.net.tokens x)) (queued : Queued x s act) (h : Step s act t) :
    (t.sessions x).Covered (t.net.tokens x) := by
  by_cases own : ∃ i e, act = .loop x i e
  · obtain ⟨i, e, rfl⟩ := own
    cases h with
    | loop found taken => exact C.looped S found taken queued
  · have kept : (s.sessions x).Covered (t.net.tokens x) := fun l mem =>
      ⟨(C l mem).1, fun waits => tokens_of_step h (fun i e same => own ⟨i, e, same⟩)
        (fun c pick same => by subst same; exact queued rfl) ((C l mem).2 waits)⟩
    refine session_of_step h x kept (fun o y inv => inv.output _ x o) (fun _ _ => .of_none rfl)
      (fun _ _ _ => .of_none rfl) (fun ctx _ => ?_) (fun force _ => ?_)
      fun i l e same _ _ => absurd ⟨i, e, same⟩ own
    · exact Session.schedule_rule kept (fun _ _ => kept) fun _ _ _ => .of_start kept (.inl rfl)
    · unfold Session.signal
      split <;> exact kept

def State.Awaited (s : State cfg) (x : SessionPtr) : Prop :=
  (s.net.schedulers (cfg.scheduler x)).sessions.Mentions x ∨ 0 < s.net.sessionConfirm x ∨
    x ∈ s.net.agentChan.map Prod.fst

instance (s : State cfg) (x : SessionPtr) : Decidable (s.Awaited x) :=
  inferInstanceAs (Decidable ((_ ∨ _ ∨ _) ∨ _ ∨ _))

lemma awaited_of_tokens (waits : 0 < s.net.tokens x) : s.Awaited x := by
  by_contra none
  simp only [State.Awaited, Registry.Mentions, not_or] at none
  obtain ⟨⟨member, added, -⟩, confirm, matched⟩ := none
  have queue : (s.net.schedulers (cfg.scheduler x)).sessions.waiting x = 0 :=
    Registry.waiting_eq_zero_iff.mpr ⟨added, member⟩
  have chan : s.net.agentChan.countP (·.1 = x) = 0 :=
    countP_eq_zero.mpr fun m mem same =>
      matched (mem_map.mpr ⟨m, mem, of_decide_eq_true same⟩)
  unfold tokens at waits
  omega

/-- A loop in the state `Cancelling` does not wait for nothing. -/
theorem cancelling_awaited (x : SessionPtr) {s : State cfg}
    (h : Reachable step (Queued x) .init s) {l : Loop} (mem : l ∈ (s.sessions x).loops)
    (cancelling : l.state = .cancelling) : s.Awaited x := by
  have covered := Reachable.invariant_of (K := fun s : State cfg => (s.sessions x).Sound)
    (I := fun s : State cfg => (s.sessions x).Covered (s.net.tokens x))
    (fun _ => sound_of_reachable fun _ _ => Queued.resumed) (.of_none rfl)
    (fun _ _ _ S C queued taken => C.step S queued (step_cases taken).2) h
  exact awaited_of_tokens ((covered l mem).2 (.inr cancelling))

theorem cancelling_awaited_killed : ∃ s : State (pool 1), Reachable step (Queued 0) .init s ∧
      ((s.sessions 0).loops.map Loop.state = [.cancelling] ∧ s.Awaited 0) := by
  obtain ⟨s, reached, state⟩ :=
    exists_of_run step (@Queued (pool 1) 0) .init
      (List.flatten [submits 0 0, [.kill 0 false, .loop 0 0 .cancelSignal]])
      (fun s => (s.sessions 0).loops.map Loop.state = [.cancelling]) (by decide)
  obtain ⟨l, loops, cancelling⟩ := map_eq_singleton_iff.mp state
  exact ⟨s, reached, state, cancelling_awaited 0 reached (by simp [loops]) cancelling⟩

/-- A session is killed after it was sent to its agent. The agent starts it, and the loop waits
for an answer to a request that it never made. -/
theorem cancelling_unawaited :
    ∃ s : State (pool 1), Reachable step Unblocked .init s ∧ s.serverDone = false ∧
      (s.sessions 0).loops.map Loop.state = [.cancelling] ∧ ¬ s.Awaited 0 :=
  exists_of_run step Unblocked .init
    (List.flatten [joins 0, submits 0 0, accepts 0 0, [.kill 0 false, .loop 0 0 .cancelSignal],
      starts (pool 1) 0 0]) _ (by decide)

end Velda.Broker
