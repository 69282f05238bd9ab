import Velda.Broker.Offers

/-! The schedulers of the pools. Other goroutines only send to the scheduler of their own
pool, so each scheduler holds agents and sessions of its pool alone; and since every
turn ends with a match if there can be one, no scheduler keeps both an agent and a
session waiting. -/
namespace Velda.Broker
open Lib State Net

variable {cfg : Config}

inductive Sends (pool : String) (p : Scheduler cfg.agentId cfg.rank) :
    Scheduler cfg.agentId cfg.rank → Prop
  | nothing : Sends pool p p
  | addAgent {q : Scheduler cfg.agentId cfg.rank} {a : AgentPtr} : cfg.agentPool a = pool →
      Sends pool p q → Sends pool p { q with agents := q.agents.sendAdd a }
  | removeAgent {q : Scheduler cfg.agentId cfg.rank} {a : AgentPtr} : cfg.agentPool a = pool →
      Sends pool p q → Sends pool p { q with agents := q.agents.sendRemove a }
  | addSession {q : Scheduler cfg.agentId cfg.rank} {x : SessionPtr} : cfg.scheduler x = pool →
      Sends pool p q → Sends pool p { q with sessions := q.sessions.sendAdd x }
  | removeSession {q : Scheduler cfg.agentId cfg.rank} {x : SessionPtr} : cfg.scheduler x = pool →
      Sends pool p q → Sends pool p { q with sessions := q.sessions.sendRemove x }

variable {s t : State cfg} {pool : String} {p q : Scheduler cfg.agentId cfg.rank} {n : Net cfg}
  {act : Action} {ok : State cfg → Action → Prop}

lemma Sends.of_modify {f : Scheduler cfg.agentId cfg.rank → Scheduler cfg.agentId cfg.rank}
    (sent : Sends pool p (n.schedulers pool))
    (send : other = pool → ∀ q, Sends pool p q → Sends pool p (f q)) :
    Sends pool p ((n.modifyScheduler other f).schedulers pool) := by
  by_cases same : pool = other
  · subst same
    simpa [modifyScheduler] using send rfl _ sent
  · simpa [modifyScheduler, Function.update_of_ne same] using sent

lemma sends_perform (a : AgentPtr) (o : AgentOutput) (sent : Sends pool p (s.net.schedulers pool)) :
    Sends pool p ((s.perform a o).net.schedulers pool) := by
  cases o with
  | addAgent => exact sent.of_modify fun own _ => .addAgent own
  | removeAgent => exact sent.of_modify fun own _ => .removeAgent own
  | _ => exact sent

lemma sends_performAll (a : AgentPtr) (r : Agent cfg × List AgentOutput)
    (sent : Sends pool p (s.net.schedulers pool)) :
    Sends pool p ((s.performAll a r).net.schedulers pool) :=
  performAll_rule (P := fun u => Sends pool p (u.net.schedulers pool)) sent
    fun _ o => sends_perform a o

lemma sends_loopStep (h : LoopStep s x i l e t) (pool : String) :
    Sends pool (s.net.schedulers pool) (t.net.schedulers pool) := by
  cases h with
  | enqueue => exact Sends.nothing.of_modify fun own _ => .addSession own
  | cancelCtx | cancelSignal => exact Sends.nothing.of_modify fun own _ => .removeSession own
  | assign _ _ taken | declined _ taken =>
    obtain ⟨rest, rfl, -⟩ := takeAgent_perm taken
    exact .nothing
  | hold _ _ taken =>
    obtain ⟨rest, rfl, -⟩ := takeAgent_perm taken
    simp only [notifyGang]
    rw [requests_eq]
    exact .nothing
  | failed _ taken | started _ taken | killDone _ taken | killStarted _ taken =>
    obtain ⟨rest, -, rfl⟩ := takeResponse_cases taken
    exact .nothing
  | _ => exact .nothing

lemma schedulers_of_step (h : Step s act t) (pool : String) :
    Sends pool (s.net.schedulers pool) (t.net.schedulers pool) ∨
      ∃ c pick d, (s.net.schedulers pool).turn c pick = some (t.net.schedulers pool, d) := by
  cases h with
  | startAgent | sender => exact .inl (sends_performAll _ _ .nothing)
  | agent _ taken =>
    refine .inl (sends_performAll _ _ ?_)
    rw [(received taken).schedulers]
    exact .nothing
  | @scheduler other c pick p d _ turned =>
    by_cases same : pool = other
    · subst same
      refine .inr ⟨c, pick, d, turned.trans ?_⟩
      simp [modifyNet, deliver]
    · refine .inl ?_
      simp only [modifyNet, deliver, Function.update_of_ne same]
      exact .nothing
  | loop _ taken => exact .inl (sends_loopStep taken pool)
  | _ => exact .inl .nothing

structure Housed (n : Net cfg) : Prop where
  agents : ∀ pool a, (n.schedulers pool).agents.Mentions a → cfg.agentPool a = pool
  sessions : ∀ pool x, (n.schedulers pool).sessions.Mentions x → cfg.scheduler x = pool

lemma Sends.mentions (h : Sends pool p q) :
    (∀ a, q.agents.Mentions a → p.agents.Mentions a ∨ cfg.agentPool a = pool) ∧
      ∀ x, q.sessions.Mentions x → p.sessions.Mentions x ∨ cfg.scheduler x = pool := by
  induction h with
  | nothing => exact ⟨fun _ => .inl, fun _ => .inl⟩
  | addAgent own _ ih =>
    refine ⟨fun a mentioned => ?_, ih.2⟩
    rcases Registry.mentions_sendAdd mentioned with old | rfl
    · exact ih.1 a old
    · exact .inr own
  | removeAgent own _ ih =>
    refine ⟨fun a mentioned => ?_, ih.2⟩
    rcases Registry.mentions_sendRemove mentioned with old | rfl
    · exact ih.1 a old
    · exact .inr own
  | addSession own _ ih =>
    refine ⟨ih.1, fun x mentioned => ?_⟩
    rcases Registry.mentions_sendAdd mentioned with old | rfl
    · exact ih.2 x old
    · exact .inr own
  | removeSession own _ ih =>
    refine ⟨ih.1, fun x mentioned => ?_⟩
    rcases Registry.mentions_sendRemove mentioned with old | rfl
    · exact ih.2 x old
    · exact .inr own

lemma Housed.step (H : Housed s.net) (h : Step s act t) : Housed t.net := by
  have pools : ∀ pool,
      (∀ a, (t.net.schedulers pool).agents.Mentions a →
        (s.net.schedulers pool).agents.Mentions a ∨ cfg.agentPool a = pool) ∧
      ∀ x, (t.net.schedulers pool).sessions.Mentions x →
        (s.net.schedulers pool).sessions.Mentions x ∨ cfg.scheduler x = pool := by
    intro pool
    rcases schedulers_of_step h pool with sent | ⟨c, pick, d, turned⟩
    · exact sent.mentions
    · obtain ⟨agents, sessions⟩ := Scheduler.turn_moves turned
      exact ⟨fun a ha => .inl (agents.mentions.1 a ha), fun x hx => .inl (sessions.mentions.1 x hx)⟩
  refine ⟨fun pool a ha => ?_, fun pool x hx => ?_⟩
  · exact ((pools pool).1 a ha).elim (H.agents pool a) id
  · exact ((pools pool).2 x hx).elim (H.sessions pool x) id

lemma housed_of_reachable (h : Reachable step ok .init s) : Housed s.net := by
  have none : ∀ {α κ : Type} {key : α → κ} {a : α}, ¬ (Registry.empty : Registry key).Mentions a :=
    fun mentioned => by rcases mentioned with member | waits | leaves <;> contradiction
  have start : Housed (init : State cfg).net :=
    ⟨fun _ _ mentioned => absurd mentioned none, fun _ _ mentioned => absurd mentioned none⟩
  exact Reachable.invariant (I := fun s : State cfg => Housed s.net) start
    (fun s act t H _ taken => H.step (step_cases taken).2) h

def Paired (n : Net cfg) : Prop := ∀ m ∈ n.agentChan, cfg.scheduler m.1 = cfg.agentPool m.2

lemma Paired.deliver (P : Paired n) (H : Housed n)
    (turned : (n.schedulers pool).turn c pick = some (q, d)) : Paired (n.deliver pool q d) := by
  intro m mem
  rcases List.mem_append.mp mem with old | new
  · exact P m old
  · obtain ⟨agents, sessions⟩ := Scheduler.turn_moves turned
    have matched : d.matched = some m := by simpa using new
    rw [matched] at agents sessions
    exact (H.sessions pool m.1 (sessions.mentions.2.2 m.1 rfl)).trans
      (H.agents pool m.2 (agents.mentions.2.2 m.2 rfl)).symm

lemma Paired.performAll (P : Paired s.net) (a : AgentPtr) (r : Agent cfg × List AgentOutput) :
    Paired (s.performAll a r).net := by
  refine performAll_rule (P := fun u : State cfg => Paired u.net) P fun u o same => ?_
  cases o <;> exact same

lemma Paired.takeAgent (P : Paired n) (h : n.takeAgent x = some (a, m)) : Paired m := by
  obtain ⟨rest, rfl, perm⟩ := takeAgent_perm h
  exact fun p mem => P p (perm.mem_iff.mpr (List.mem_cons_of_mem _ mem))

lemma Paired.step (P : Paired s.net) (H : Housed s.net) (h : Step s act t) : Paired t.net := by
  cases h with
  | startAgent | sender => exact Paired.performAll (by exact P) _ _
  | @agent _ _ n _ _ taken =>
    refine Paired.performAll ?_ _ _
    cases received taken <;> exact P
  | scheduler _ turned => exact P.deliver H turned
  | loop _ taken =>
    cases taken with
    | assign _ _ taken | declined _ taken =>
      have left := P.takeAgent taken
      exact left
    | hold _ _ taken =>
      have left := P.takeAgent taken
      simp only [notifyGang]
      rw [requests_eq]
      exact left
    | failed _ taken | started _ taken | killDone _ taken | killStarted _ taken =>
      obtain ⟨rest, -, rfl⟩ := takeResponse_cases taken
      exact P
    | _ => exact P
  | _ => exact P

lemma paired_of_reachable (h : Reachable step ok .init s) : Paired s.net :=
  Reachable.invariant_of (K := fun s : State cfg => Housed s.net)
    (I := fun s : State cfg => Paired s.net) (fun _ => housed_of_reachable)
    (by simp [Paired, init, empty])
    (fun s act t H P _ taken => P.step H (step_cases taken).2) h

/-- Not both an agent and a session wait for the scheduler, unless it shuts down. -/
def Scheduler.Matched (p : Scheduler cfg.agentId cfg.rank) : Prop :=
  p.shuttingDown = true ∨ p.agents.members.size = 0 ∨ p.sessions.members.size = 0

lemma Sends.matched (h : Sends pool p q) (matched : p.Matched) : q.Matched := by
  induction h with
  | nothing => exact matched
  | addAgent _ _ ih | removeAgent _ _ ih | addSession _ _ ih | removeSession _ _ ih => exact ih

lemma Scheduler.Matched.turn (matched : p.Matched) (h : p.turn c pick = some (q, d)) :
    q.Matched := by
  obtain ⟨m, received, ⟨rfl, -, idle⟩ | ⟨x, -, hx, picked, rfl⟩⟩ := turn_cases h
  · exact idle
  · obtain ⟨agents, sessions⟩ := receive_read received
    have agentsLeft := Registry.size_leave picked
    have sessionsLeft := Registry.size_leave hx
    have agentsRead := agents.size_le
    have sessionsRead := sessions.size_le
    rcases matched with down | none | none
    · have stays := receive_shuttingDown received down
      exact .inl stays
    · exact .inr (.inl (by show (m.agents.leave pick).members.size = 0; omega))
    · exact .inr (.inr (by show (m.sessions.leave x).members.size = 0; omega))

lemma matched_of_reachable (h : Reachable step ok .init s) (pool : String) :
    (s.net.schedulers pool).Matched := by
  refine Reachable.invariant (I := fun s : State cfg => (s.net.schedulers pool).Matched)
    (.inr (.inl rfl)) (fun s act t matched _ taken => ?_) h
  rcases schedulers_of_step (step_cases taken).2 pool with sent | ⟨c, pick, d, turned⟩
  · exact sent.matched matched
  · exact matched.turn turned

/-- In every run no pool has both an agent and a session that wait to be matched, and a scheduler
matches agents and sessions of its own pool, each once, and first the session that comes first. -/
theorem matching_sound {s : State cfg} {ok : State cfg → Action → Prop}
    (h : Reachable step ok .init s) (pool : String) :
    (s.net.schedulers pool).Matched ∧
      ∀ c pick q d x a, (s.net.schedulers pool).turn c pick = some (q, d) →
        d.matched = some (x, a) → (cfg.scheduler x = pool ∧ cfg.agentPool a = pool) ∧
        a ∉ q.agents.members ∧ x ∉ q.sessions.members ∧
        ∀ y ∈ q.sessions.members, sessionComparator (cfg.rank x) (cfg.rank y) = .lt := by
  refine ⟨matched_of_reachable h pool, fun c pick q d x a turned made => ?_⟩
  have H := housed_of_reachable h
  obtain ⟨agents, sessions⟩ := Scheduler.turn_moves turned
  rw [made] at agents sessions
  have own := H.sessions pool x (sessions.mentions.2.2 x rfl)
  exact ⟨⟨own, H.agents pool a (agents.mentions.2.2 a rfl)⟩, Scheduler.matched_first turned made⟩

theorem matching_sound_one : ∃ s : State (Broker.pool 1), Reachable step Unblocked .init s ∧
    ((s.net.schedulers "pool").turn .addSession 0).any (·.2.matched = some (0, 0)) = true ∧
    (s.net.schedulers "pool").Matched := by
  refine (exists_of_run _ _ _ (joins 0 ++ (submits 0 0).dropLast) _ ?_).imp fun s ⟨reached, made⟩ =>
    ⟨reached, made, (matching_sound reached "pool").1⟩
  decide +kernel

end Velda.Broker
