import Velda.Broker.Gangs
import Velda.Broker.SessionView

/-! The handshake before a worker is deleted. An agent that is asked to shut down takes
itself off offer and calls `MarkDeleting` when that is confirmed, unless a session
accepts it first. For it to be drained then, its flag has to follow its offers, and no
gang may owe it a request for a session it has dropped. -/
namespace Velda.Broker
open Lib List State Net Agent Keyed

variable {cfg : Config}

variable {a : AgentPtr} {s t : State cfg} {act : Action} {g : Agent cfg} {v : View cfg}
  {input : AgentInput}

lemma requests_of_step (h : Step s act t) (a : AgentPtr) :
    (∀ r ∈ s.net.sessionReq a, r ∈ t.net.sessionReq a) ∨ ∃ n r, act = .agent a .sessionReq ∧
        s.net.takeInput a .sessionReq = some (n, .sessionReq r) ∧
        s.net.sessionReq a = r :: t.net.sessionReq a := by
  cases h with
  | startAgent =>
    rw [startAgent, (sameGangs_performAll _ _ _).requests]
    exact .inl fun _ => id
  | sender =>
    rw [(sameGangs_performAll _ _ _).requests]
    exact .inl fun _ => id
  | @agent b e n input _ taken =>
    rw [(sameGangs_performAll _ _ _).requests]
    have received := received taken
    cases received with
    | @sessionReq r rest queue =>
      by_cases same : a = b
      · subst same
        exact .inr ⟨_, r, rfl, taken, by simpa using queue⟩
      · exact .inl fun q mem => by simpa [Function.update_of_ne same] using mem
    | _ => exact .inl fun _ => id
  | loop _ taken =>
    refine .inl ?_
    cases taken with
    | assign _ _ taken | declined _ taken =>
      obtain ⟨rest, rfl, -⟩ := takeAgent_perm taken
      exact fun r mem => mem_request.mpr (.inl mem)
    | hold _ _ taken =>
      obtain ⟨rest, rfl, -⟩ := takeAgent_perm taken
      exact fun r mem => mem_requests.mpr (.inl (mem_request.mpr (.inl mem)))
    | failed _ taken | started _ taken | killDone _ taken | killStarted _ taken =>
      obtain ⟨rest, -, rfl⟩ := takeResponse_cases taken
      exact fun _ => id
    | _ => exact fun _ => id
  | _ =>
    exact .inl fun _ => id

lemma Flagged.offers_of_idle (F : Flagged (s.view a)) (idle : (s.agents a).receiving = false) :
    s.net.offers a = 0 := by
  have bound : s.net.offers a + s.net.agentConfirm a ≤ (s.agents a).receiving.toNat := F.bound
  rw [idle, Bool.toNat_false] at bound
  omega

lemma isRelease_of_offers {n : Net cfg} (none : n.offers a = 0) (mem : r ∈ n.sessionReq a) :
    r.isRelease cfg = true := by
  by_contra answer
  have counted : 0 < (n.sessionReq a).countP (!·.isRelease cfg) :=
    countP_pos_iff.mpr ⟨r, mem, by simpa using answer⟩
  unfold offers at none
  omega

def AgentUpdateRequest.Ends (m : AgentUpdateRequest) (revoked : Bool) (k : SessionKey) : Prop :=
  m.sessionInitResponse = some (k, false) ∨
    revoked = true ∧ ∃ c, m.sessionCompletion = some c ∧ c.key = k

namespace Agent

lemma isSome_lookup_insert {g : Keyed cfg.key} (x : SessionPtr)
    (held : (g.lookup k).isSome = true) : ((g.insert x).lookup k).isSome = true := by
  obtain ⟨y, found⟩ := Option.isSome_iff_exists.mp held
  obtain ⟨mem, rfl⟩ := lookup_eq_some_iff.mp found
  by_cases same : cfg.key y = cfg.key x
  · rw [same, lookup_insert_self]
    rfl
  · rw [lookup_eq_some_iff.mpr ⟨mem_insert.mpr (.inr ⟨mem, same⟩), rfl⟩]
    rfl

lemma isSome_lookup_update (held : (g.mySessions.lookup k).isSome = true)
    (kept : ¬ m.Ends revoked k) :
    ((g.handleSessionUpdate a m revoked).1.mySessions.lookup k).isSome = true := by
  obtain ⟨h, first, out, inited, completed, same⟩ := g.updated a m revoked
  rw [same]
  obtain ⟨init, completion⟩ := m
  simp only [AgentUpdateRequest.Ends, not_or] at kept
  have first : (h.mySessions.lookup k).isSome = true := by
    cases inited with
    | none | unknown | started => exact held
    | @failed l x =>
      have other : k ≠ l := fun same => kept.1 (by rw [same])
      rw [rejoin, lookup_erase, if_neg other]
      exact held
  cases completed with
  | none | unknown => exact first
  | unrevoked => simpa using first
  | checkpointed _ ok | completed _ ok =>
    have other : k ≠ _ := fun same => kept.2 ⟨ok, _, rfl, same.symm⟩
    rw [rejoin, lookup_erase, if_neg other]
    exact first

end Agent

lemma Agent.isSome_lookup_accepted (accept : r.accept = true)
    (running : (settle a (g.handle a (.sessionReq r))).1.phase ≠ .returned) :
    ((g.handle a (.sessionReq r)).1.mySessions.lookup (cfg.key r.session)).isSome = true := by
  have handled := g.handled a (.sessionReq r)
  generalize g.handle a (.sessionReq r) = out at handled running ⊢
  cases handled with
  | refused stopping => exact absurd (by simp [settle, stopping]) running
  | released _ _ declined | declined _ _ declined =>
    rw [accept] at declined
    cases declined
  | accepted => simp [Agent.accept]

/-- The condition for one agent: its flag follows its offers, and a session that is owed a
request by its gang is not taken off it. -/
def Orderly (a : AgentPtr) (s : State cfg) (act : Action) : Prop :=
  Steady a s act ∧ match act with
    | .agent b e => b = a → ∀ n m revoked, s.net.takeInput a e = some (n, .update m revoked) →
        ∀ x, s.Owed a x → ¬ m.Ends revoked (cfg.key x)
    | .sender b _ false => b = a → ∀ x ctx rest, s.net.resChan a = .session x ctx :: rest →
        ∀ y, s.Owed a y → cfg.key y ≠ cfg.key x
    | _ => True

structure Drained (a : AgentPtr) (s : State cfg) : Prop where
  flagged : Flagged (s.view a)
  requested : (s.agents a).shutdownRequested = true →
    (s.agents a).phase.started = true ∧ (s.agents a).mySessions.size = 0
  owing : ∀ x, s.Owed a x → (s.agents a).phase ≠ .returned →
    s.Sent a x ∨ ((s.agents a).mySessions.lookup (cfg.key x)).isSome = true
  deleting : .markDeleting a ∈ s.events → (s.agents a).phase.started = true ∧
    (s.agents a).mySessions.size = 0 ∧ (s.agents a).receiving = false ∧ ∀ x, ¬ s.Owed a x

lemma turn_of_step (h : Step s (.agent a e) t) (taken : s.net.takeInput a e = some (n, input)) :
    (s.agents a).phase = .running ∧
      t.agents a = (settle a ((s.agents a).handle a input)).1 := by
  cases h with
  | agent phase taken' =>
    rw [taken] at taken'
    cases taken'
    exact ⟨phase, by rw [performAll_agents, Function.update_self]⟩

lemma Agent.requested_handle (before : g.shutdownRequested = true → g.mySessions.size = 0)
    (requested : (g.handle a input).1.shutdownRequested = true) :
    (g.handle a input).1.mySessions.size = 0 := by
  have handled := g.handled a input
  generalize g.handle a input = out at handled requested ⊢
  cases handled with
  | stop =>
    rw [mySessions_stop]
    exact before ((Ended.stop g).shutdownRequested ▸ requested)
  | update m revoked =>
    have ended := (g.ended_of_update a m revoked).1
    have empty := before (ended.shutdownRequested ▸ requested)
    have size := ended.size
    omega
  | withdraw empty => exact empty
  | accepted => cases requested
  | _ =>
    exact before requested

lemma Drained.requested_step (D : Drained a s) (h : AgentStep a s act v)
    (requested : v.agent.shutdownRequested = true) :
    v.agent.phase.started = true ∧ v.agent.mySessions.size = 0 := by
  cases h with
  | untouched | scheduler | recv => exact D.requested requested
  | connect => cases requested
  | register phase | start phase | drop phase =>
    have started := (D.requested requested).1
    rw [phase] at started
    cases started
  | turn phase taken =>
    rw [shutdownRequested_settle] at requested
    refine ⟨started_settle phase a _, ?_⟩
    rw [mySessions_settle]
    exact requested_handle (fun h => (D.requested h).2) requested
  | @sender f rest granted sent phase queue =>
    rw [shutdownRequested_runSend] at requested
    have size := (s.agents a).size_runSend_le a granted sent f
    have empty := (D.requested requested).2
    exact ⟨by rw [phase_runSend]; exact phase, by simp only; omega⟩

lemma Drained.held_step (blank : (s.view a).Blank) (orderly : Orderly a s act)
    (h : AgentStep a s act v) (owed : s.Owed a x)
    (held : ((s.agents a).mySessions.lookup (cfg.key x)).isSome = true) :
    (v.agent.mySessions.lookup (cfg.key x)).isSome = true := by
  cases h with
  | connect fresh =>
    rw [blank.agent fresh] at held
    cases held
  | register => exact isSome_lookup_insert _ held
  | @turn e n input _ _ phase taken =>
    rw [mySessions_settle]
    have kept : ∀ m revoked, input = .update m revoked → ¬ m.Ends revoked (cfg.key x) := by
      rintro m revoked rfl
      exact orderly.2 rfl n m revoked taken x owed
    have handled := (s.agents a).handled a input
    generalize (s.agents a).handle a input = out at handled ⊢
    cases handled with
    | stop => simpa using held
    | update m revoked => exact isSome_lookup_update held (kept m revoked rfl)
    | accepted => exact isSome_lookup_insert _ held
    | _ => exact held
  | @sender f rest granted sent phase queue =>
    cases f with
    | kill k =>
      cases sent with
      | true => exact held
      | false => simpa [runSend] using held
    | session y ctx =>
      cases sent with
      | true => exact held
      | false =>
        have other := orderly.2 rfl y ctx rest queue x owed
        simp only [runSend, Bool.false_eq_true, if_false, lookup_erase, if_neg other]
        exact held
  | _ => exact held

lemma deleting_of_step (h : Step s act t) (deleting : .markDeleting a ∈ t.events) :
    .markDeleting a ∈ s.events ∨ ∃ e n input, act = .agent a e ∧
      s.net.takeInput a e = some (n, input) ∧
      ((s.agents a).shutdownRequested = true ∨ (s.agents a).mySessions.size = 0) ∧
      ((s.agents a).handle a input).1.receiving = false ∧
      ((s.agents a).handle a input).1.mySessions = (s.agents a).mySessions ∧
      ∀ r, input = .sessionReq r → r.accept = false := by
  obtain ⟨evs, events, source⟩ := logged_of_step h
  rw [events] at deleting
  rcases mem_append.mp deleting with new | old
  · cases source _ new with
    | turn turn logged =>
      obtain ⟨o, made, logged⟩ := mem_flatMap.mp logged
      cases turn.made o made with
      | deleting taken last idle same declines =>
        cases mem_singleton.mp logged
        exact .inr ⟨_, _, _, rfl, taken, last, idle, same, declines⟩
      | _ => simp [AgentOutput.events] at logged
  · exact .inl old

lemma returned_stays (blank : (s.view a).Blank) (h : AgentStep a s act v)
    (returned : (s.agents a).phase = .returned) : v.agent.phase = .returned := by
  cases h with
  | untouched | scheduler => exact returned
  | connect fresh =>
    rw [blank.agent fresh] at returned
    cases returned
  | register phase | start phase | drop phase | recv phase | turn phase =>
    rw [phase] at returned
    cases returned
  | sender => rw [phase_runSend, returned]

lemma Drained.owing_step (D : Drained a s) (blank : (s.view a).Blank) (orderly : Orderly a s act)
    (h : Step s act t) (view : AgentStep a s act (t.view a)) (owed : t.Owed a x)
    (running : (t.agents a).phase ≠ .returned) :
    t.Sent a x ∨ ((t.agents a).mySessions.lookup (cfg.key x)).isSome = true := by
  rcases owed_of_step h owed with owed | sent
  · have before : (s.agents a).phase ≠ .returned :=
      fun returned => running (returned_stays blank view returned)
    rcases D.owing x owed before with ⟨r, mem, accept, answer, named⟩ | held
    · rcases requests_of_step h a with kept | ⟨n, q, rfl, taken, queue⟩
      · exact .inl ⟨r, kept r mem, accept, answer, named⟩
      · rw [queue] at mem
        rcases mem_cons.mp mem with rfl | later
        · rw [(turn_of_step h taken).2] at running ⊢
          rw [mySessions_settle, ← named]
          exact .inr (Agent.isSome_lookup_accepted accept running)
        · exact .inl ⟨r, later, accept, answer, named⟩
    · exact .inr (Drained.held_step blank orderly view owed held)
  · exact .inl sent

lemma Agent.lookup_of_empty (empty : g.mySessions.size = 0) (k : SessionKey) :
    g.mySessions.lookup k = none := by
  rw [Keyed.lookup_eq_none_iff]
  intro x mem
  rw [mem_def, eq_nil_of_length_eq_zero empty] at mem
  cases mem

lemma Flagged.idle_step (F : Flagged (s.view a)) (blank : (s.view a).Blank)
    (h : AgentStep a s act v) (started : (s.agents a).phase.started = true)
    (empty : (s.agents a).mySessions.size = 0) (idle : (s.agents a).receiving = false)
    (none : ∀ x, ¬ s.Owed a x) :
    v.agent.phase.started = true ∧ v.agent.mySessions.size = 0 ∧ v.agent.receiving = false := by
  cases h with
  | untouched | scheduler | recv => exact ⟨started, empty, idle⟩
  | connect fresh =>
    rw [blank.agent fresh] at started
    cases started
  | register phase | start phase | drop phase =>
    rw [phase] at started
    cases started
  | @turn e n input _ _ phase taken =>
    refine ⟨started_settle phase a _, ?_⟩
    rw [mySessions_settle, receiving_settle]
    have request : ∀ r, input ≠ .sessionReq r := by
      rintro r rfl
      cases received taken with
      | sessionReq queue =>
        have mem : r ∈ s.net.sessionReq a := by rw [queue]; exact mem_cons_self
        exact none r.session (.inl ⟨r, mem, isRelease_of_offers (F.offers_of_idle idle) mem, rfl⟩)
    have handled := (s.agents a).handled a input
    generalize (s.agents a).handle a input = out at handled ⊢
    cases handled with
    | stop => exact ⟨by simpa using empty, by simpa [receiving_stop] using idle⟩
    | update m revoked =>
      have ended := ((s.agents a).ended_of_update a m revoked).1
      have size := ended.size
      have zero : (s.agents a).endings m revoked = 0 := by omega
      exact ⟨by omega, by rw [ended.receiving, zero, idle]; rfl⟩
    | confirmed | withdrawn | unexpected => exact ⟨empty, rfl⟩
    | busy | drained | kill => exact ⟨empty, idle⟩
    | withdraw _ receiving =>
      rw [idle] at receiving
      cases receiving
    | _ => exact absurd rfl (request _)
  | @sender f rest granted sent phase queue =>
    have size := (s.agents a).size_runSend_le a granted sent f
    refine ⟨by rw [phase_runSend]; exact phase, by simp only; omega, ?_⟩
    rw [receiving_runSend]
    exact idle

lemma Drained.deleting_step (D : Drained a s) (blank : (s.view a).Blank)
    (flagged : Flagged (t.view a)) (h : Step s act t) (view : AgentStep a s act (t.view a))
    (deleting : .markDeleting a ∈ t.events) :
    (t.agents a).phase.started = true ∧ (t.agents a).mySessions.size = 0 ∧
      (t.agents a).receiving = false ∧ ∀ x, ¬ t.Owed a x := by
  have noneSent : (t.agents a).receiving = false → ∀ x, ¬ t.Sent a x := by
    rintro idle x ⟨r, mem, -, answer, -⟩
    rw [isRelease_of_offers (flagged.offers_of_idle idle) mem] at answer
    cases answer
  rcases deleting_of_step h deleting with old |
    ⟨e, n, input, rfl, taken, last, idle, same, declines⟩
  · obtain ⟨started, empty, idle, none⟩ := D.deleting old
    obtain ⟨started', empty', idle'⟩ := D.flagged.idle_step blank view started empty idle none
    refine ⟨started', empty', idle', fun x owed => ?_⟩
    rcases owed_of_step h owed with before | sent
    · exact none x before
    · exact noneSent idle' x sent
  · have empty : (s.agents a).mySessions.size = 0 := last.elim (fun r => (D.requested r).2) id
    obtain ⟨running, turned⟩ := turn_of_step h taken
    have idle : (t.agents a).receiving = false := by
      rw [turned, receiving_settle]
      exact idle
    refine ⟨?_, ?_, idle, fun x owed => ?_⟩
    · rw [turned]
      exact started_settle running a input
    · rw [turned, mySessions_settle, same]
      exact empty
    · refine noneSent idle x ?_
      rcases owed_of_step h owed with before | sent
      · rcases D.owing x before (by rw [running]; simp) with ⟨r, mem, accept, rest⟩ | held
        · rcases requests_of_step h a with kept | ⟨n', q, atEvent, taken', queue⟩
          · exact ⟨r, kept r mem, accept, rest⟩
          · cases atEvent
            rw [taken] at taken'
            cases taken'
            rw [queue] at mem
            rcases mem_cons.mp mem with rfl | later
            · rw [declines r rfl] at accept
              cases accept
            · exact ⟨r, later, accept, rest⟩
        · rw [lookup_of_empty empty] at held
          cases held
      · exact sent

lemma Drained.step (D : Drained a s) (housed : Housed s.net) (blank : (s.view a).Blank)
    (orderly : Orderly a s act) (h : Step s act t) : Drained a t := by
  have view := agentStep_of_step housed h a
  have flagged := D.flagged.step blank orderly.1 view
  exact ⟨flagged, D.requested_step view, fun _ => D.owing_step blank orderly h view,
    D.deleting_step blank flagged h view⟩

lemma drained_of_reachable (h : Reachable step (Orderly a) .init s) : Drained a s := by
  have start : Drained a (init : State cfg) := by
    refine ⟨⟨Nat.zero_le _, fun receiving => (by cases receiving)⟩,
      fun requested => (by cases requested), ?_, fun deleting => (by cases deleting)⟩
    rintro x (⟨r, mem, -⟩ | ⟨agent, -⟩) _
    · cases mem
    · cases agent
  exact Reachable.invariant_of (K := fun s : State cfg => Housed s.net ∧ (s.view a).Blank)
    (fun _ before => ⟨housed_of_reachable before, blank_of_reachable before a⟩) start
    (fun _ _ _ known D orderly taken => D.step known.1 known.2 orderly (step_cases taken).2) h

/-- An agent that has called `MarkDeleting` on itself is drained: it has no session, it is not on
offer, and no request is in its channel or owed to it. This holds in every later state too, so
it accepts nothing any more. -/
theorem deleting_drained (a : AgentPtr) {s : State cfg} (h : Reachable step (Orderly a) .init s)
    (deleting : .markDeleting a ∈ s.events) :
    (s.agents a).mySessions.size = 0 ∧ s.net.offers a = 0 ∧ s.net.sessionReq a = [] ∧
      ∀ x, ¬ s.Owed a x := by
  have D := drained_of_reachable h
  obtain ⟨-, empty, idle, none⟩ := D.deleting deleting
  have unoffered := D.flagged.offers_of_idle idle
  refine ⟨empty, unoffered, eq_nil_iff_forall_not_mem.mpr fun r mem => none r.session ?_, none⟩
  exact .inl ⟨r, mem, isRelease_of_offers unoffered mem, rfl⟩

lemma orderly_of_alone (alone : ∀ x, (cfg.request x).shard = none) (steady : Steady a s act) :
    Orderly a s act := by
  have none : ∀ x, ¬ s.Owed a x := by
    rintro x (⟨r, -, release, -⟩ | ⟨-, waits⟩)
    · simp [SessionRequest.isRelease, alone] at release
    · have member := waits.isSome
      rw [alone] at member
      cases member
  refine ⟨steady, ?_⟩
  split
  · exact fun _ _ _ _ _ x owed => absurd owed (none x)
  · exact fun _ _ _ _ _ y owed => absurd owed (none y)
  · trivial

theorem deleting_drained_idle :
    ∃ s : State (pool 1), Reachable step (Orderly 0) .init s ∧ .markDeleting 0 ∈ s.events ∧
      (s.agents 0).mySessions.size = 0 ∧ s.net.offers 0 = 0 ∧ s.net.sessionReq 0 = [] := by
  obtain ⟨s, reached, deleting⟩ := exists_of_run step (@Steady (pool 1) 0) .init
    (List.flatten [joins 0, [.requestShutdown 0, .agent 0 .shutdown,
      .scheduler "pool" .removeAgent 0, .agent 0 .cancelConfirm]])
    (fun s => .markDeleting 0 ∈ s.events) (by decide)
  have reached := reached.weaken fun _ _ => orderly_of_alone fun _ => rfl
  obtain ⟨empty, unoffered, unread, -⟩ := deleting_drained 0 reached deleting
  exact ⟨s, reached, deleting, empty, unoffered, unread⟩

/-- A session ends while its agent is matched with another one; the agent, on offer again, is
asked to shut down, calls `MarkDeleting`, and then takes the session it was matched with. -/
theorem deleting_accepts :
    ∃ s : State (pool 2), Reachable step Unblocked .init s ∧ .markDeleting 0 ∈ s.events ∧
      (s.agents 0).mySessions.entries = [1] :=
  exists_of_run step Unblocked .init
    (List.flatten [joins 0, submits 0 0, accepts 0 0, [.scheduler "pool" .addAgent 0],
      starts (pool 2) 0 0, submits 1 0, finishes (pool 2) 0 0, [.scheduler "pool" .addAgent 0,
      .requestShutdown 0, .agent 0 .shutdown, .scheduler "pool" .removeAgent 0,
      .agent 0 .cancelConfirm, .loop 1 0 .agent, .agent 0 .sessionReq]]) _ (by decide)

end Velda.Broker
