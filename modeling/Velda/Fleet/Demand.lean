import Velda.Fleet.System

/-! How many sessions wait for a worker of a pool. A session asks for a worker when it is
queued; the agent that takes it, or the loop that withdraws it, tells the pool. A ledger
says of each session where its request is: in its loop, or on its way to an agent. -/
namespace Velda.Pool

variable {χ : Type}

def Op.demand : Op χ → Int
  | .requestWorker _ => 1
  | .requestCancelled _ | .markBusy .. => -1
  | _ => 0

lemma Upkept.pendingSessions (U : Upkept p q) : q.pendingSessions = p.pendingSessions := by
  induction U with
  | same => rfl
  | other _ _ pending _ _ _ ih => rw [pending, ih]
  | setVersion name version _ ih =>
    rw [← ih]
    unfold AutoScaledPool.setVersion
    split <;> rfl
  | set _ _ _ _ _ ih | remove _ _ _ ih | await _ ih | claimUnknown _ ih => exact ih

lemma AutoScaledPool.pendingSessions_setDetail (p : AutoScaledPool χ) (name : String) (chan : χ)
    (slots : Int) : (p.setDetail name chan slots).pendingSessions = p.pendingSessions := by
  unfold setDetail
  split <;> rfl

lemma AutoScaledPool.pendingSessions_apply {p q : AutoScaledPool χ}
    (single : ∀ count now nodes, op = .requestBatch count now nodes → p.batch = false)
    (h : p.apply op = some (q, sent)) : q.pendingSessions = p.pendingSessions + op.demand := by
  rw [(upkept_apply h).pendingSessions]
  cases op with
  | requestBatch count now nodes => simp [told, single count now nodes rfl, Op.demand]
  | markLost name now =>
    simp only [told, markLost, Op.demand, Int.add_zero]
    split <;> rfl
  | notifyAgentAvailable name busy chan slots =>
    simp only [told, notifyAgentAvailable, pendingSessions_setDetail, Op.demand, Int.add_zero]
    generalize (if busy then WorkerStatusCode.running else .idle) = status
    split <;> rfl
  | resourcePoolEvent name now =>
    simp only [told, handleResourcePoolEvent, Op.demand, Int.add_zero]
    split
    · rfl
    · split <;> rfl
  | requestWorker | requestCancelled | markBusy => rfl
  | _ => exact (Int.add_zero _).symm

end Velda.Pool

namespace Velda.Broker
open Lib List

variable {cfg : Config}

def Event.demand (cfg : Config) (p : String) : Event → Int
  | .requestWorker x => if managerOf (cfg.scheduler x) = p then 1 else 0
  | .requestCancelled x => if managerOf (cfg.scheduler x) = p then -1 else 0
  | .markBusy a _ => if managerOf (cfg.agentPool a) = p then -1 else 0
  | _ => 0

variable {x : SessionPtr} {s t : State cfg} {act : Action} {a : AgentPtr} {f g : Fleet cfg}
  {e : Event} {p : String} {r : SessionRequest} {evs : List Event} {waits : Prop} {l : Loop}
  {os : List Pool.Oracle} {y : Session} {rest : List SessionRequest}

lemma Event.demand_of_call {pool : String} (h : e.call cfg now o = some (pool, op)) (p : String) :
    e.demand cfg p = (if pool = p then op.demand else 0) ∧
      ∀ count now nodes, op ≠ .requestBatch count now nodes := by
  cases e with
  | requestWorker | requestCancelled | notifyAgentAvailable | markBusy | markIdle | markDeleting
  | markLost =>
    simp only [call, Option.some.injEq, Prod.mk.injEq] at h
    obtain ⟨rfl, rfl⟩ := h
    exact ⟨by simp [demand, Pool.Op.demand], by simp⟩
  | _ => cases h

lemma Event.demand_of_no_call (h : e.call cfg now o = none) (p : String) : e.demand cfg p = 0 := by
  cases e with
  | requestWorker | requestCancelled | markBusy => cases h
  | _ => rfl

namespace Fleet

lemma pendingSessions_apply {pool : String} (h : f.apply pool op = some g) (p : String) (single : ∀
      count now nodes, op = .requestBatch count now nodes → pool = p → (f.pools p).batch = false) :
    (g.pools p).pendingSessions = (f.pools p).pendingSessions + if pool = p then op.demand else 0 := by
  obtain ⟨q, told, applied, rfl⟩ := apply_eq h
  by_cases own : pool = p
  · subst own
    simpa using Pool.AutoScaledPool.pendingSessions_apply
      (fun count now nodes batch => single count now nodes batch rfl) applied
  · simp [own, Function.update_of_ne (Ne.symm own)]

lemma pendingSessions_deliver (h : deliver evs os f = some g) (p : String) :
    (g.pools p).pendingSessions =
      (f.pools p).pendingSessions + (evs.map (Event.demand cfg p)).sum := by
  induction evs generalizing f os with
  | nil =>
    cases h
    simp
  | cons e rest ih =>
    unfold deliver at h
    rw [map_cons, sum_cons]
    split at h
    · next call =>
      rw [ih h, Event.demand_of_no_call call p]
      omega
    · next pool op call =>
      obtain ⟨u, applied, delivered⟩ := Option.bind_eq_some_iff.mp h
      obtain ⟨demand, unbatched⟩ := Event.demand_of_call call p
      have first := pendingSessions_apply applied p fun count now nodes batch =>
        absurd batch (unbatched count now nodes)
      rw [ih delivered, first, demand]
      omega

end Fleet

/-! Where the first request of a session is. -/

def SessionRequest.isFirst (cfg : Config) (x : SessionPtr) (r : SessionRequest) : Bool :=
  r.accept && !r.isRelease cfg && decide (r.session = x)

def Net.firsts (n : Net cfg) (a : AgentPtr) (x : SessionPtr) : Nat :=
  (n.sessionReq a).countP (·.isFirst cfg x)

lemma Net.firsts_request (n : Net cfg) (b a : AgentPtr) (r : SessionRequest) (x : SessionPtr) :
    (n.request b r).firsts a x =
      n.firsts a x + if a = b ∧ r.isFirst cfg x = true then 1 else 0 := by
  by_cases own : a = b
  · subst own
    simp [firsts, request]
  · simp [firsts, request, own]

lemma Net.firsts_releases (n : Net cfg) (s : State cfg) (run : List (Callback cfg))
    (a : AgentPtr) (x : SessionPtr) :
    ((s.releases run).foldl (fun n (a, r) => n.request a r) n).firsts a x = n.firsts a x := by
  have later : ∀ m ∈ s.releases run, m.2.isFirst cfg x = false := fun m mem => by
    simp [SessionRequest.isFirst, isRelease_of_mem_releases mem]
  generalize s.releases run = l at later
  induction l generalizing n with
  | nil => rfl
  | cons m rest ih =>
    rw [foldl_cons, ih _ fun m mem => later m (mem_cons_of_mem _ mem), firsts_request,
      later m mem_cons_self]
    simp

lemma Fleet.taken_eq_some (h : taken s (.agent a .sessionReq) = some x)
    (queue : s.net.sessionReq a = r :: rest) :
    r.isFirst cfg x = true ∧ (s.agents a).stopping = false := by
  simp only [taken, queue] at h
  split at h
  · cases h
  · next goes =>
    obtain ⟨q, kept, own⟩ := Option.map_eq_some_iff.mp h
    obtain ⟨same, first⟩ := Option.filter_eq_some_iff.mp kept
    cases same
    exact ⟨by simpa [SessionRequest.isFirst, own] using first, by simpa using goes⟩

lemma Fleet.taken_of_first (first : r.isFirst cfg x = true)
    (queue : s.net.sessionReq a = r :: rest) (goes : (s.agents a).stopping = false) :
    taken s (.agent a .sessionReq) = some x := by
  simp only [SessionRequest.isFirst, Bool.and_eq_true, decide_eq_true_eq] at first
  simp [taken, queue, goes, first.1.1, first.2]
  simpa using first.1.2

inductive Firsts (s t : State cfg) (act : Action) (x : SessionPtr) : Prop
  | same : (∀ i l, act = .loop x i .agent → (s.sessions x).loops[i]? = some l →
        l.state ≠ .queueing) → Fleet.taken s act ≠ some x →
      (∀ b, t.net.firsts b x = s.net.firsts b x) → Firsts s t act x
  | read {a : AgentPtr} {r : SessionRequest} {rest : List SessionRequest} :
      act = .agent a .sessionReq → s.net.sessionReq a = r :: rest → r.isFirst cfg x = true →
      (∀ b, t.net.firsts b x + (if b = a then 1 else 0) = s.net.firsts b x) → Firsts s t act x
  | asked {i : Nat} {l : Loop} {a : AgentPtr} : act = .loop x i .agent →
      (s.sessions x).loops[i]? = some l → l.state = .queueing → (x, a) ∈ s.net.agentChan →
      (∀ b, t.net.firsts b x = s.net.firsts b x + if b = a then 1 else 0) → Firsts s t act x

lemma firsts_of_step (h : Step s act t) (x : SessionPtr) : Firsts s t act x := by
  cases h with
  | startAgent | sender =>
    refine .same (by simp) (by simp [Fleet.taken]) fun b => ?_
    unfold Net.firsts
    first
    | rw [State.startAgent, (sameGangs_performAll _ _ _).requests]
    | rw [(sameGangs_performAll _ _ _).requests]
  | @agent a e n input _ taken =>
    have requests : ∀ b, (({ s with net := n } : State cfg).performAll a
        (Agent.settle a ((s.agents a).handle a input))).net.firsts b x = n.firsts b x := by
      intro b
      unfold Net.firsts
      rw [(sameGangs_performAll _ _ _).requests]
    cases Net.received taken with
    | @sessionReq r rest queue =>
      have left : ∀ b, Net.firsts { s.net with
          sessionReq := Function.update s.net.sessionReq a rest } b x +
            (if b = a ∧ r.isFirst cfg x = true then 1 else 0) = s.net.firsts b x := by
        intro b
        by_cases own : b = a
        · subst own
          simp [Net.firsts, queue, countP_cons]
        · simp [Net.firsts, own]
      by_cases first : r.isFirst cfg x = true
      · refine .read rfl queue first fun b => ?_
        rw [requests, ← left]
        simp [first]
      · refine .same (by simp) (fun took => first ?_) fun b => ?_
        · exact (Fleet.taken_eq_some took queue).1
        · rw [requests, ← left]
          simp [first]
    | _ => exact .same (by simp) (by simp [Fleet.taken]) requests
  | @loop z i l e _ found taken =>
    -- the loop sends request `q` to agent `b`, and gangs that it completes send releases only
    have sent : ∀ {b n} {q : SessionRequest}, e = .agent → l.state = .queueing →
        s.net.takeAgent z = some (b, n) → (∀ c, t.net.firsts c x = (n.request b q).firsts c x) →
        q.isFirst cfg x = decide (z = x) → Firsts s t (.loop z i e) x := by
      intro b n q agent state took counts first
      subst agent
      obtain ⟨rest, rfl, perm⟩ := Net.takeAgent_perm took
      simp only [Net.firsts_request, first] at counts
      by_cases own : z = x
      · subst own
        refine .asked rfl found state (perm.mem_iff.mpr mem_cons_self) fun c => ?_
        simpa [Net.firsts] using counts c
      · refine .same (fun _ _ same => ?_) (by simp [Fleet.taken]) fun c => ?_
        · cases same
          exact absurd rfl own
        · simpa [own, Net.firsts] using counts c
    cases taken with
    | assign state alone took =>
      exact sent rfl state took (fun c => rfl)
        (by simp [SessionRequest.isFirst, SessionRequest.isRelease, alone])
    | hold state member took =>
      refine sent (q := ⟨z, l.ctx, true, true⟩) rfl state took (fun c => ?_)
        (by simp [SessionRequest.isFirst, SessionRequest.isRelease])
      rw [State.notifyGang, Net.firsts_releases]
      rfl
    | declined state took =>
      obtain ⟨rest, rfl, -⟩ := Net.takeAgent_perm took
      have kept : ∀ j m, Action.loop z i .agent = .loop x j .agent →
          (s.sessions x).loops[j]? = some m → m.state ≠ .queueing := by
        intro j m same again
        cases same
        rw [found] at again
        cases again
        simp [state]
      refine .same kept (by simp [Fleet.taken]) fun c => ?_
      simp only [State.turned, Net.firsts_request]
      simp [SessionRequest.isFirst, Net.firsts]
    | failed _ took | started _ took | killDone _ took | killStarted _ took =>
      obtain ⟨rest, -, rfl⟩ := Net.takeResponse_cases took
      exact .same (by simp) (by simp [Fleet.taken]) fun _ => rfl
    | staleRefresh other =>
      refine .same (fun _ _ same => ?_) (by simp [Fleet.taken]) fun _ => rfl
      cases same
      simp at other
    | _ => exact .same (by simp) (by simp [Fleet.taken]) fun _ => rfl
  | _ =>
    exact .same (by simp) (by simp [Fleet.taken]) fun _ => rfl

/-! The list of the sessions that wait. -/

def Event.books (x : SessionPtr) : Event → Bool
  | .requestWorker y | .requestCancelled y | .recordExecution y _ => y = x
  | _ => false

namespace Fleet

variable {w : List SessionPtr}

lemma mem_record (h : e.books x = false) : x ∈ record w e ↔ x ∈ w := by
  cases e with
  | requestWorker y | requestCancelled y =>
    have other : ¬ y = x := by simpa [Event.books] using h
    simp [record, Ne.symm other]
  | recordExecution y final =>
    have other : ¬ y = x := by simpa [Event.books] using h
    by_cases final = .checkpointed <;> simp_all [record, Ne.symm other]
  | _ => exact Iff.rfl

lemma mem_records (h : ∀ e ∈ evs, e.books x = false) : x ∈ evs.foldl record w ↔ x ∈ w := by
  induction evs generalizing w with
  | nil => exact Iff.rfl
  | cons e rest ih =>
    rw [foldl_cons, ih fun e mem => h e (mem_cons_of_mem _ mem)]
    exact mem_record (h e mem_cons_self)

lemma notMem_records (absent : x ∉ w) (h : .requestWorker x ∉ evs) : x ∉ evs.foldl record w := by
  induction evs generalizing w with
  | nil => exact absent
  | cons e rest ih =>
    obtain ⟨differs, later⟩ := not_or.mp (mt mem_cons.mpr h)
    refine ih ?_ later
    cases e with
    | requestWorker y =>
      have other : x ≠ y := fun same => differs (same ▸ rfl)
      simp [record, other, absent]
    | requestCancelled y => simp [record, absent]
    | recordExecution y final => by_cases final = .checkpointed <;> simp_all [record]
    | _ => exact absent

lemma nodup_records (h : w.Nodup) : (evs.foldl record w).Nodup := by
  induction evs generalizing w with
  | nil => exact h
  | cons e rest ih =>
    refine ih ?_
    cases e with
    | requestWorker x => exact h.insert
    | requestCancelled x => exact h.filter _
    | recordExecution x final =>
      simp only [record]
      split
      · exact h
      · exact h.filter _
    | _ => exact h

lemma waiting_of_untaken {act : Broker.Action} (t : State cfg) (h : taken f.broker act = none) :
    (f.turned act t).waiting = (f.broker.news t).foldl record f.waiting := by
  simp [turned, h]

end Fleet

lemma Turn.calm {r : Agent cfg × List AgentOutput} (turn : Turn s act a r)
    (free : act.settles = some a → x ∉ (s.agents a).mySessions) :
    ∀ o ∈ r.2, o.Spares cfg x ∧ ∀ e ∈ o.events, e.books x = false := by
  intro o mem
  cases turn.made o mem with
  | @markStale _ l _ settles held =>
    have untouched : x ∉ l := fun mem => free settles (held x mem)
    simp [AgentOutput.Spares, AgentOutput.onSession, AgentOutput.events, untouched]
  | @failed _ _ z _ _ _ found | @completed _ _ z _ _ found | @checkpointed _ _ z _ _ found =>
    have other : z ≠ x := by
      rintro rfl
      exact free rfl (Keyed.lookup_eq_some_iff.mp found).1
    simp [AgentOutput.Spares, AgentOutput.onSession, AgentOutput.events, Event.books, other]
  | _ => simp [AgentOutput.Spares, AgentOutput.onSession, AgentOutput.events, Event.books]

lemma unbooked_of_step (h : Step s act t) (other : ∀ i e, act ≠ .loop x i e)
    (free : ∀ a ∈ act.settles, x ∉ (s.agents a).mySessions) :
    ∀ e ∈ s.news t, e.books x = false := by
  intro e mem
  cases source h mem with
  | @turn a r _ turn listed =>
    obtain ⟨o, made, logged⟩ := mem_flatMap.mp listed
    exact (turn.calm (free a) o made).2 e logged
  | asked own | withdrawn own | recorded _ own =>
    exact decide_eq_false fun same => other _ _ (same ▸ own)
  | _ => rfl

/-! The ledger. -/

def SchedulingState.placid : SchedulingState → Bool
  | .queueing | .cancelling | .awaitingKill => false
  | _ => true

/-- Where the request of a session for a worker is: nowhere, with its loop, or on its way to the
agent that the session was matched with. -/
inductive Ledger (s : State cfg) (x : SessionPtr) (waits : Prop) : Prop
  | quiet : ¬ waits → (∀ b, s.net.firsts b x = 0) →
      (∀ l ∈ (s.sessions x).loops, l.state.placid = true) → Ledger s x waits
  | queued {l : Loop} : waits → (∀ b, s.net.firsts b x = 0) → (s.sessions x).loops = [l] →
      l.state = .queueing ∨ l.state = .cancelling → Ledger s x waits
  | sent {a : AgentPtr} : waits → (∀ b, s.net.firsts b x = if b = a then 1 else 0) →
      cfg.scheduler x = cfg.agentPool a →
      (∀ l ∈ (s.sessions x).loops, l.state = .sentToAgent) →
      (s.sessions x).loops ≠ [] ∨ (s.sessions x).status = .waitingForOtherShards →
      Ledger s x waits

lemma Ledger.quiet_of_state (L : Ledger s x waits) (loops : (s.sessions x).loops = [l])
    (state : l.state ≠ .queueing ∧ l.state ≠ .cancelling ∧ l.state ≠ .sentToAgent) :
    ¬ waits ∧ (∀ b, s.net.firsts b x = 0) ∧ l.state.placid = true := by
  cases L with
  | quiet rests none placid => exact ⟨rests, none, placid l (by simp [loops])⟩
  | queued _ _ one asks =>
    rw [loops] at one
    cases one
    exact absurd asks (not_or.mpr ⟨state.1, state.2.1⟩)
  | sent _ _ _ all => exact absurd (all l (by simp [loops])) state.2.2

lemma Ledger.queued_of_state (L : Ledger s x waits) (loops : (s.sessions x).loops = [l])
    (state : l.state = .queueing ∨ l.state = .cancelling) : waits ∧ ∀ b, s.net.firsts b x = 0 := by
  cases L with
  | quiet _ _ placid =>
    have calm := placid l (by simp [loops])
    rcases state with state | state <;> rw [state] at calm <;> cases calm
  | queued asks none => exact ⟨asks, none⟩
  | sent _ _ _ all =>
    have other := all l (by simp [loops])
    rcases state with state | state <;> rw [state] at other <;> cases other

lemma Ledger.quiet_of_absent (L : Ledger s x waits) (absent : ¬ waits) :
    (∀ b, s.net.firsts b x = 0) ∧ ∀ l ∈ (s.sessions x).loops, l.state.placid = true := by
  cases L with
  | quiet _ none placid => exact ⟨none, placid⟩
  | queued asks => exact absurd asks absent
  | sent asks => exact absurd asks absent

lemma Session.placid_refresh {done : Ctx → Bool} (loops : y.loops = [l])
    (placid : m.state.placid = true) : ∀ k ∈ (y.refresh done 0 m).loops, k.state.placid = true := by
  unfold refresh
  split <;> simp [loops, placid]

/-- The turns of a loop of the pool that keep the books: the session is not part of a batch, a kill
does not come after an agent was asked, the loop does not return from the queue on its own, and
an answer does not come before the agent has read the request. -/
def Loop.Orderly (cfg : Config) (x : SessionPtr) (waits : Prop) (l : Loop) : LoopEvent → Prop
  | .quota true => cfg.batched x = false
  | .cancelSignal => l.state ≠ .sentToAgent
  | .serverDone => l.state ≠ .queueing
  | .response => ¬ waits
  | _ => True

instance (x : SessionPtr) (waits : Prop) [Decidable waits] (l : Loop) (e : LoopEvent) :
    Decidable (l.Orderly cfg x waits e) := by
  induction e using LoopEvent.casesOn with
  | quota granted =>
    induction granted using Bool.casesOn <;> unfold Loop.Orderly <;> infer_instance
  | _ => unfold Loop.Orderly; infer_instance

inductive Entry (cfg : Config) (x : SessionPtr) (before after : Prop) (news : List Event) : Prop
  | same : (after ↔ before) → (∀ e ∈ news, ∀ p, e.demand cfg p = 0) → Entry cfg x before after news
  | asked : ¬ before → after → news = [.requestWorker x] → Entry cfg x before after news
  | left : before → ¬ after → news = [.requestCancelled x, .recordExecution x .cancelled] →
      Entry cfg x before after news

/-- The ledger of a session and what was entered for it, when the sessions in `w` wait then. -/
def Booked (f : Fleet cfg) (x : SessionPtr) (t : State cfg) (w : List SessionPtr)
    (news : List Event) : Prop :=
  Ledger t x (x ∈ w) ∧ Entry cfg x (x ∈ f.waiting) (x ∈ w) news

lemma Event.not_asks (h : ∀ e ∈ evs, ∀ p, e.demand cfg p = 0) (x : SessionPtr) :
    .requestWorker x ∉ evs := by
  intro mem
  have zero := h _ mem (managerOf (cfg.scheduler x))
  simp [demand] at zero

lemma Ledger.looped {e : LoopEvent} (S : (f.broker.sessions x).Sound) (P : Paired f.broker.net)
    (L : Ledger f.broker x (x ∈ f.waiting)) (found : (f.broker.sessions x).loops[i]? = some l)
    (orderly : l.Orderly cfg x (x ∈ f.waiting) e) (taken : LoopStep f.broker x i l e t) :
    Booked f x t (f.turned (.loop x i e) t).waiting (f.broker.news t) := by
  obtain ⟨rfl, loops⟩ := S.loops_eq found
  have same : e ≠ .agent ∨ l.state ≠ .queueing →
      ∀ b, t.net.firsts b x = f.broker.net.firsts b x := by
    intro other
    cases firsts_of_step (.loop found taken) x with
    | same _ _ eq => exact eq
    | read act => cases act
    | asked act again state =>
      cases act
      rw [found] at again
      cases again
      exact absurd state (other.resolve_left (by simp))
  have asked : e = .agent → l.state = .queueing → ∃ c, cfg.scheduler x = cfg.agentPool c ∧
      ∀ b, t.net.firsts b x = f.broker.net.firsts b x + if b = c then 1 else 0 := by
    intro agent state
    subst agent
    cases firsts_of_step (.loop found taken) x with
    | same kept => exact absurd state (kept _ l rfl found)
    | read act => cases act
    | asked _ _ _ matched moved => exact ⟨_, P _ matched, moved⟩
  rw [Fleet.waiting_of_untaken t rfl]
  -- a session that does not ask stays so
  have rests : x ∉ f.waiting → (∀ b, f.broker.net.firsts b x = 0) →
      e ≠ .agent ∨ l.state ≠ .queueing → (∀ e ∈ f.broker.news t, ∀ p, e.demand cfg p = 0) →
      (∀ l ∈ (t.sessions x).loops, l.state.placid = true) →
      Booked f x t ((f.broker.news t).foldl Fleet.record f.waiting) (f.broker.news t) := by
    intro absent unsent other silent placid
    have still := Fleet.notMem_records absent (Event.not_asks silent x)
    exact ⟨.quiet still (fun b => (same other b).trans (unsent b)) placid,
      .same (iff_of_false still absent) silent⟩
  have asks : l.state = .queueing → e ≠ .agent → f.broker.news t = [] →
      ∀ m, (t.sessions x).loops = [m] → m.state = .queueing ∨ m.state = .cancelling →
      Booked f x t ((f.broker.news t).foldl Fleet.record f.waiting) (f.broker.news t) := by
    intro state other silent m one waits
    obtain ⟨present, unsent⟩ := L.queued_of_state loops (.inl state)
    rw [silent]
    exact ⟨.queued present (fun b => (same (.inl other) b).trans (unsent b)) one waits,
      .same Iff.rfl (by simp)⟩
  cases taken with
  | refused state | reschedule state | reconnectKill state | reconnectedLate state
  | staleShutdown state | staleTimer state | reconnected state =>
    obtain ⟨absent, unsent, -⟩ := L.quiet_of_state loops (by grind)
    exact rests absent unsent (.inl (by simp)) (by simp [State.news_turned, Event.demand])
      (by simp [State.turned, Session.finishLoop, Session.finish, Session.endLoop, Session.setLoop,
        loops, SchedulingState.placid])
  | enqueue state =>
    obtain ⟨absent, unsent, -⟩ := L.quiet_of_state loops (by simp [state])
    have single : cfg.batched x = false := orderly
    rw [State.news_turned, single]
    have now : x ∈ [.requestWorker x].foldl Fleet.record f.waiting := by simp [Fleet.record]
    refine ⟨.queued (l := { l with state := .queueing }) now
      (fun b => (same (.inl (by simp)) b).trans (unsent b))
      (by simp [State.turned, Session.setLoop, loops]) (.inl rfl), ?_⟩
    exact .asked absent now rfl
  | noCtx state => exact asks state (by simp) (State.news_eq (l := []) rfl) l loops (.inl state)
  | @nextCtx next _ state =>
    exact asks state (by simp) (State.news_turned ..) { l with ctx := some next }
      (by simp [State.turned, Session.setLoop, loops]) (.inl state)
  | cancelCtx state =>
    exact asks state (by simp) (State.news_turned ..) { l with state := .cancelling, ctx := none }
      (by simp [State.turned, Session.setLoop, loops]) (.inr rfl)
  | cancelSignal state =>
    exact asks state (by simp) (State.news_turned ..) { l with state := .cancelling }
      (by simp [State.turned, Session.setLoop, Session.takeSignal, loops]) (.inr rfl)
  | shutdown state | killSent state => exact absurd state orderly
  | killStarted state | killDone state =>
    obtain ⟨-, -, placid⟩ := L.quiet_of_state loops (by simp [state])
    rw [state] at placid
    cases placid
  | failed | started =>
    obtain ⟨unsent, -⟩ := L.quiet_of_absent orderly
    exact rests orderly unsent (.inl (by simp)) (by simp [State.news_turned, Event.demand])
      (by simp [State.turned, Session.finishLoop, Session.finish, Session.updateFromAgentResponse,
        Session.endLoop, loops])
  | confirmed state | cancelShutdown state | declined state =>
    obtain ⟨present, unsent⟩ := L.queued_of_state loops (.inr state)
    rw [State.news_turned]
    have gone : x ∉ [.requestCancelled x, .recordExecution x .cancelled].foldl Fleet.record
        f.waiting := by simp [Fleet.record]
    refine ⟨.quiet gone (fun b => (same (.inr (by simp [state])) b).trans (unsent b))
      (by simp [State.turned, Session.finishLoop, Session.finish, Session.endLoop, loops]), ?_⟩
    exact .left present gone rfl
  | lost state =>
    obtain ⟨absent, unsent, -⟩ := L.quiet_of_state loops (by simp [state])
    exact rests absent unsent (.inl (by simp))
      (by cases (f.broker.sessions x).agent <;> simp [State.news_turned, Event.demand])
      (by simp [State.turned, Session.finishLoop, Session.finish, Session.endLoop, loops])
  | notReconnected state =>
    obtain ⟨absent, unsent, placid⟩ := L.quiet_of_state loops (by simp [state])
    exact rests absent unsent (.inl (by simp)) (by simp [State.news])
      (by simpa [loops] using placid)
  | staleSignal state | staleRefresh _ state =>
    obtain ⟨absent, unsent, placid⟩ := L.quiet_of_state loops (by grind)
    refine rests absent unsent (by grind) (by simp [State.news_turned]) ?_
    simp only [State.turned, Function.update_self]
    exact Session.placid_refresh loops (by first | rfl | exact placid)
  | assign state alone took =>
    obtain ⟨present, unsent⟩ := L.queued_of_state loops (.inl state)
    obtain ⟨c, own, moved⟩ := asked rfl state
    rw [State.news_turned]
    refine ⟨.sent present (fun b => ?_) own ?_ ?_, .same Iff.rfl (by simp)⟩
    · rw [moved, unsent, Nat.zero_add]
    · simp [State.turned, Session.setLoop, loops]
    · simp [State.turned, Session.setLoop, loops]
  | hold state member took =>
    obtain ⟨present, unsent⟩ := L.queued_of_state loops (.inl state)
    obtain ⟨c, own, moved⟩ := asked rfl state
    rw [State.news_eq (l := []) (by simp [State.notifyGang, State.turned])]
    refine ⟨.sent present (fun b => ?_) own ?_ (.inr ?_), .same Iff.rfl (by simp)⟩
    · rw [moved, unsent, Nat.zero_add]
    · simp [State.notifyGang, State.turned, Session.endLoop, loops]
    · simp [State.notifyGang, State.turned, Session.endLoop]

/-- The steps that keep the books of a pool. No agent that has a session which waits ends sessions
or stops; a shutdown request is read by an agent without sessions; an agent that is asked to take
a session does not stop, and has the session if and only if its gang releases it. -/
def Metered (p : String) (f : Fleet cfg) : Fleet.Action → Prop
  | .broker act _ =>
    (∀ a ∈ act.settles, ∀ x ∈ (f.broker.agents a).mySessions.entries,
      managerOf (cfg.scheduler x) = p → x ∉ f.waiting) ∧
    match act with
    | .schedule x _ => managerOf (cfg.scheduler x) = p →
        (f.broker.sessions x).status = .checkpointed → (f.broker.sessions x).loops = []
    | .agent a .shutdown => managerOf (cfg.agentPool a) = p →
        (f.broker.agents a).mySessions.size = 0
    | .agent a .sessionReq => managerOf (cfg.agentPool a) = p →
        ∀ r ∈ (f.broker.net.sessionReq a).head?, r.accept = true →
          (f.broker.agents a).stopping = false ∧
            ((f.broker.agents a).mySessions.lookup (cfg.key r.session)).isSome = r.isRelease cfg
    | .loop x i e => managerOf (cfg.scheduler x) = p →
        ∀ l ∈ (f.broker.sessions x).loops[i]?, l.Orderly cfg x (x ∈ f.waiting) e
    | _ => True
  | .pool q (.requestBatch ..) => q = p → (f.pools p).batch = false
  | .pool _ _ => True

instance (p : String) (f : Fleet cfg) (act : Fleet.Action) : Decidable (Metered p f act) := by
  induction act using Fleet.Action.casesOn with
  | broker act os =>
    induction act using Action.casesOn with
    | agent a e => induction e using AgentEvent.casesOn <;> unfold Metered <;> infer_instance
    | _ => unfold Metered; infer_instance
  | pool q op => induction op using Pool.Op.casesOn <;> unfold Metered <;> infer_instance

lemma Metered.resumed (h : Metered p f (.broker act os)) (own : managerOf (cfg.scheduler x) = p) :
    Resumed x f.broker act := by
  cases act with
  | schedule y ctx =>
    intro same
    subst same
    exact h.2 own
  | _ => trivial

lemma Ledger.created (L : Ledger s x waits) (F : s.Fresh) (asks : waits) : x ∈ s.created := by
  by_contra unmade
  have idle := F x unmade
  cases L with
  | quiet rests => exact rests asks
  | queued _ _ one =>
    rw [idle.loops] at one
    cases one
  | @sent a _ moved =>
    have one : 0 < s.net.firsts a x := by
      rw [moved, if_pos rfl]
      exact Nat.one_pos
    obtain ⟨r, mem, first⟩ := countP_pos_iff.mp one
    simp only [SessionRequest.isFirst, Bool.and_eq_true, decide_eq_true_eq] at first
    exact idle.requested a r mem first.1.1 first.2

lemma kept_of_step (S : (s.sessions x).Sound)
    (busy : (s.sessions x).loops ≠ [] ∨ (s.sessions x).status = .waitingForOtherShards)
    (made : x ∈ s.created) (resumed : Resumed x s act) (other : ∀ i e, act ≠ .loop x i e)
    (free : ∀ a ∈ act.settles, x ∉ (s.agents a).mySessions) (h : Step s act t) :
    (t.sessions x).loops = (s.sessions x).loops ∧
      (t.sessions x).status = (s.sessions x).status := by
  refine session_of_turn h x (I := fun y => y.loops = (s.sessions x).loops ∧
    y.status = (s.sessions x).status) ⟨rfl, rfl⟩ (fun a r turn => ?_) (fun _ unused => ?_)
    (fun _ _ unused => ?_) (fun ctx same _ => ?_) (fun _ _ _ _ => ?_)
    (fun i l e same => absurd same (other i e))
  · rw [AgentOutput.onSessions_of_spared fun o mem => (turn.calm (free a) o mem).1]
    exact ⟨rfl, rfl⟩
  · exact absurd made unused.1
  · exact absurd made unused.1
  · subst same
    refine Session.schedule_rule (I := fun y => y.loops = _ ∧ y.status = _) ⟨rfl, rfl⟩
      (fun _ _ => ⟨rfl, rfl⟩) fun starts => ?_
    have none := starts.elim (resumed rfl) fun fresh => S.idle (.inl fresh)
    rcases busy with some | waits
    · exact absurd none some
    · rw [waits] at starts
      simp at starts
  · unfold Session.signal
    split <;> exact ⟨rfl, rfl⟩

lemma Session.placid_start {rest : List Ctx} (placid : ∀ l ∈ y.loops, l.state.placid = true)
    (calm : state.placid = true) : ∀ l ∈ (y.start state ctx rest).loops, l.state.placid = true := by
  intro l mem
  rcases mem_append.mp mem with old | new
  · exact placid l old
  · rw [mem_singleton.mp new]
    exact calm

lemma Session.placid_schedule (placid : ∀ l ∈ y.loops, l.state.placid = true) (ctx : Ctx) :
    ∀ l ∈ (y.schedule ctx).loops, l.state.placid = true :=
  schedule_rule (I := fun y => ∀ l ∈ y.loops, l.state.placid = true) placid (fun _ _ => placid)
    fun _ _ _ => placid_start placid rfl

lemma Session.placid_output {done : Ctx → Bool} (placid : ∀ l ∈ y.loops, l.state.placid = true)
    (o : AgentOutput) : ∀ l ∈ (o.onSession cfg done x y).loops, l.state.placid = true := by
  unfold AgentOutput.onSession
  split
  · split <;> exact placid
  · split <;> exact placid
  · split
    · unfold markStale
      split
      · split
        · exact placid_start (by exact placid) rfl
        · exact placid
      · exact placid_start (by exact placid) rfl
      · exact placid
    · exact placid
  · exact placid

lemma Turn.not_asks {r : Agent cfg × List AgentOutput} (turn : Turn s act a r)
    (mem : e ∈ r.2.flatMap AgentOutput.events) (x : SessionPtr) :
    e ≠ .requestWorker x ∧ e ≠ .requestCancelled x := by
  obtain ⟨o, made, logged⟩ := mem_flatMap.mp mem
  constructor <;> rintro rfl <;> cases turn.made o made <;> simp [AgentOutput.events] at logged

lemma not_asks_of_step (h : Step s act t) (other : ∀ i e, act ≠ .loop x i e) :
    .requestWorker x ∉ s.news t := by
  intro mem
  by_cases turn : ∃ a r, Turn s act a r
  · obtain ⟨a, r, turn⟩ := turn
    rw [turn.news h] at mem
    exact (turn.not_asks mem x).1 rfl
  · have free : ∀ a ∈ act.settles, x ∉ (s.agents a).mySessions := by
      intro a settles
      refine absurd ?_ turn
      cases h with
      | agent _ taken => exact ⟨_, _, .agent taken⟩
      | sender granted sent _ queue => exact ⟨_, _, .sender granted sent queue⟩
      | _ => cases settles
    have books := unbooked_of_step h other free _ mem
    simp [Event.books] at books

lemma Ledger.step (own : managerOf (cfg.scheduler x) = p) (S : (f.broker.sessions x).Sound)
    (F : f.broker.Fresh) (P : Paired f.broker.net) (L : Ledger f.broker x (x ∈ f.waiting))
    (ok : Metered p f (.broker act os)) (h : Step f.broker act t) :
    Ledger t x (x ∈ (f.turned act t).waiting) := by
  by_cases loop : ∃ i e, act = .loop x i e
  · obtain ⟨i, e, rfl⟩ := loop
    cases h with
    | loop found taken => exact (L.looped S P found (ok.2 own _ found) taken).1
  have other : ∀ i e, act ≠ .loop x i e := fun i e same => loop ⟨i, e, same⟩
  by_cases present : x ∈ f.waiting
  · have free : ∀ a ∈ act.settles, x ∉ (f.broker.agents a).mySessions :=
      fun a settles held => ok.1 a settles x held own present
    have made := L.created F present
    have books : x ∈ (f.turned act t).waiting ↔ Fleet.taken f.broker act ≠ some x := by
      unfold Fleet.turned
      rw [Fleet.mem_records (unbooked_of_step h other free), mem_filter]
      simp [present, ne_comm]
    have busy : (f.broker.sessions x).loops ≠ [] ∨
        (f.broker.sessions x).status = .waitingForOtherShards := by
      cases L with
      | quiet absent => exact absurd present absent
      | queued _ _ one => exact .inl (by simp [one])
      | sent _ _ _ _ busy => exact busy
    obtain ⟨loops, status⟩ := kept_of_step S busy made (ok.resumed own) other free h
    cases firsts_of_step h x with
    | same _ untaken same =>
      have stays := books.mpr untaken
      cases L with
      | quiet absent => exact absurd present absent
      | queued _ unsent one state =>
        exact .queued stays (fun b => (same b).trans (unsent b)) (loops.trans one) state
      | sent _ moved home all _ =>
        exact .sent stays (fun b => (same b).trans (moved b)) home (by rw [loops]; exact all)
          (by rw [loops, status]; exact busy)
    | @read a r rest act queue first left =>
      have some : f.broker.net.firsts a x ≠ 0 := by
        have here := left a
        rw [if_pos rfl] at here
        omega
      cases L with
      | quiet absent => exact absurd present absent
      | queued _ unsent => exact absurd (unsent a) some
      | @sent b _ moved home all =>
        obtain rfl : a = b := by
          by_contra differs
          exact some (by rw [moved, if_neg differs])
        subst act
        have accept : r.accept = true := by
          simp only [SessionRequest.isFirst, Bool.and_eq_true] at first
          exact first.1.1
        have goes := (ok.2 (home ▸ own) r (by simp [queue]) accept).1
        have gone := mt books.mp (not_not.mpr (Fleet.taken_of_first first queue goes))
        refine .quiet gone (fun c => ?_) fun l mem => ?_
        · have count := left c
          rw [moved] at count
          omega
        · rw [all l (loops ▸ mem)]
          rfl
    | asked act => exact absurd act (other _ _)
  · obtain ⟨unsent, placid⟩ := L.quiet_of_absent present
    refine .quiet ?_ (fun b => ?_) ?_
    · refine Fleet.notMem_records (fun mem => present (mem_filter.mp mem).1) ?_
      exact not_asks_of_step h other
    · cases firsts_of_step h x with
      | same _ _ same => exact (same b).trans (unsent b)
      | read _ _ _ left =>
        have count := left b
        rw [unsent] at count
        omega
      | asked act => exact absurd act (other _ _)
    · refine session_of_step h x (I := fun y => ∀ l ∈ y.loops, l.state.placid = true) placid
        (fun o y calm => Session.placid_output calm o) (fun _ _ => by simp)
        (fun _ _ _ => by simp [State.reported]) (fun ctx _ => Session.placid_schedule placid ctx)
        (fun _ _ => ?_) (fun i l e same => absurd same (other i e))
      unfold Session.signal
      split <;> exact placid

lemma Agent.events_accept {g : Agent cfg} (goes : g.stopping = false) (accept : r.accept = true)
    (new : (g.mySessions.lookup (cfg.key r.session)).isSome = false) :
    (g.handle a (.sessionReq r)).2.flatMap AgentOutput.events =
      [.markBusy a ((g.accept a r.session).freeSlots a)] := by
  simp only [handle, handleSessionReq, goes, accept, acceptOutputs, new]
  cases (g.accept a r.session).receiving <;> cases r.holdResourceOnly <;> simp [AgentOutput.events]

def Takes (s : State cfg) (act : Action) (a : AgentPtr) (r : SessionRequest) : Prop :=
  act = .agent a .sessionReq ∧ (∃ rest, s.net.sessionReq a = r :: rest) ∧ r.accept = true ∧
    (s.agents a).stopping = false ∧
    ((s.agents a).mySessions.lookup (cfg.key r.session)).isSome = false

lemma Turn.demand {r : Agent cfg × List AgentOutput} (turn : Turn s act a r)
    (mem : e ∈ r.2.flatMap AgentOutput.events) (some : e.demand cfg p ≠ 0) :
    managerOf (cfg.agentPool a) = p ∧
      (act = .agent a .shutdown ∧ 0 < (s.agents a).mySessions.size ∨ ∃ q, Takes s act a q) := by
  have silent := turn.not_asks mem
  cases e with
  | requestWorker x => exact absurd rfl (silent x).1
  | requestCancelled x => exact absurd rfl (silent x).2
  | markBusy b n =>
    have pool : managerOf (cfg.agentPool b) = p := by
      by_contra other
      exact some (if_neg other)
    obtain ⟨o, made, logged⟩ := mem_flatMap.mp mem
    cases turn.made o made with
    | busy _ _ busy =>
      obtain ⟨rfl, -⟩ : b = a ∧ n = _ := by simpa [AgentOutput.events] using logged
      exact ⟨pool, .inl ⟨rfl, busy⟩⟩
    | taken _ queue accept goes new =>
      obtain ⟨rfl, -⟩ : b = a ∧ n = _ := by simpa [AgentOutput.events] using logged
      exact ⟨pool, .inr ⟨_, rfl, ⟨_, queue⟩, accept, goes, new⟩⟩
    | _ => simp [AgentOutput.events] at logged
  | _ => exact absurd rfl some

lemma Takes.news (took : Takes s act a r) (h : Step s act t) :
    ∃ n, s.news t = [.markBusy a n] := by
  obtain ⟨rfl, ⟨rest, queue⟩, accept, goes, new⟩ := took
  cases h with
  | agent _ taken =>
    rw [(Turn.agent taken).news (.agent ‹_› taken)]
    cases Net.received taken with
    | sessionReq again =>
      rw [queue] at again
      cases again
      refine ⟨((s.agents a).accept a r.session).freeSlots a, ?_⟩
      rw [Agent.settle, if_neg, Agent.events_accept goes accept new]
      simp [Agent.handle, Agent.handleSessionReq, goes, accept, Agent.accept]

lemma homed_of_reachable {ok : State cfg → Action → Prop} (h : Reachable step ok .init s) :
    ∀ a x, s.net.firsts a x ≠ 0 → cfg.scheduler x = cfg.agentPool a := by
  refine Reachable.invariant_of (K := fun s : State cfg => Paired s.net)
    (I := fun s : State cfg => ∀ a x, s.net.firsts a x ≠ 0 → cfg.scheduler x = cfg.agentPool a)
    (fun _ => paired_of_reachable) (by simp [Net.firsts, State.init, Net.empty])
    (fun s act t P home _ taken a x some => ?_) h
  cases firsts_of_step (step_cases taken).2 x with
  | same _ _ same => exact home a x (same a ▸ some)
  | read _ _ _ left =>
    have count := left a
    exact home a x (by omega)
  | @asked _ _ b _ _ _ matched moved =>
    by_cases own : a = b
    · subst own
      exact P _ matched
    · rw [moved, if_neg own] at some
      exact home a x some

lemma demand_of_loop {e : LoopEvent} (h : Step s (.loop x i e) t)
    (other : managerOf (cfg.scheduler x) ≠ p) : ∀ e ∈ s.news t, e.demand cfg p = 0 := by
  intro e mem
  cases source h mem with
  | turn turn => cases turn
  | asked own | withdrawn own =>
    cases own
    exact if_neg other
  | _ => rfl

section Counting

variable {α : Type} {q : α → Bool} {v w : List α}

lemma length_filter_of_same (nodup : w.Nodup) (nodup' : v.Nodup)
    (same : ∀ x, q x = true → (x ∈ v ↔ x ∈ w)) : (v.filter q).length = (w.filter q).length := by
  refine ((perm_ext_iff_of_nodup (nodup'.filter q) (nodup.filter q)).mpr fun x => ?_).length_eq
  rw [mem_filter, mem_filter]
  exact and_congr_left (same x)

lemma length_filter_of_new {x : α} (nodup : w.Nodup) (nodup' : v.Nodup) (counts : q x = true)
    (absent : x ∉ w) (present : x ∈ v) (same : ∀ y ≠ x, q y = true → (y ∈ v ↔ y ∈ w)) :
    (v.filter q).length = (w.filter q).length + 1 := by
  have more := length_filter_of_same (q := q) (nodup_cons.mpr ⟨absent, nodup⟩) nodup'
    fun y holds => by
      by_cases own : y = x
      · simp [own, present]
      · simp [own, same y own holds]
  rw [more, filter_cons_of_pos counts, length_cons]

end Counting

def Fleet.waitingFor (f : Fleet cfg) (p : String) : List SessionPtr :=
  f.waiting.filter fun x => managerOf (cfg.scheduler x) = p

lemma Fleet.taken_cases {act : Broker.Action} (h : taken s act = some x) :
    ∃ a r rest, act = .agent a .sessionReq ∧
      s.net.sessionReq a = r :: rest ∧ r.isFirst cfg x = true ∧ (s.agents a).stopping = false := by
  unfold taken at h
  split at h
  · next a =>
    cases queue : s.net.sessionReq a with
    | nil => simp [queue] at h
    | cons r rest => exact ⟨a, r, rest, rfl, queue, taken_eq_some h queue⟩
  · cases h

lemma SessionRequest.isFirst_iff :
    r.isFirst cfg x = true ↔ r.accept = true ∧ r.isRelease cfg = false ∧ r.session = x := by
  simp [isFirst, and_assoc]

lemma Net.firsts_ne_zero {n : Net cfg} (queue : n.sessionReq a = r :: rest)
    (first : r.isFirst cfg x = true) : n.firsts a x ≠ 0 := by
  simp [firsts, queue, first]

lemma turn_of_demand (h : Step s act t) (mem : e ∈ s.news t) (some : e.demand cfg p ≠ 0)
    (other : ∀ x i e, act ≠ .loop x i e) :
    ∃ a r, Turn s act a r ∧ e ∈ r.2.flatMap AgentOutput.events := by
  cases source h mem with
  | turn turn listed => exact ⟨_, _, turn, listed⟩
  | asked own | withdrawn own => exact absurd own (other _ _ _)
  | _ => exact absurd rfl some

lemma demand_of_step (nodup : f.waiting.Nodup)
    (S : ∀ x, managerOf (cfg.scheduler x) = p → (f.broker.sessions x).Sound)
    (P : Paired f.broker.net)
    (home : ∀ a x, f.broker.net.firsts a x ≠ 0 → cfg.scheduler x = cfg.agentPool a)
    (L : ∀ x, managerOf (cfg.scheduler x) = p → Ledger f.broker x (x ∈ f.waiting))
    (ok : Metered p f (.broker act os)) (h : Step f.broker act t) :
    (((f.turned act t).waitingFor p).length : Int) =
      (f.waitingFor p).length + ((f.broker.news t).map (Event.demand cfg p)).sum := by
  have nodup' : (f.turned act t).waiting.Nodup := Fleet.nodup_records (nodup.filter _)
  -- the sessions of the pool whose loop has no turn and that no agent takes
  have still : ∀ y, managerOf (cfg.scheduler y) = p → (∀ i e, act ≠ .loop y i e) →
      Fleet.taken f.broker act ≠ some y → (y ∈ (f.turned act t).waiting ↔ y ∈ f.waiting) := by
    intro y own other untaken
    by_cases present : y ∈ f.waiting
    · refine iff_of_true ?_ present
      have free : ∀ a ∈ act.settles, y ∉ (f.broker.agents a).mySessions :=
        fun a settles held => ok.1 a settles y held own present
      refine (Fleet.mem_records (unbooked_of_step h other free)).mpr ?_
      exact mem_filter.mpr ⟨present, by simpa using untaken.symm⟩
    · refine iff_of_false (Fleet.notMem_records ?_ (not_asks_of_step h other)) present
      exact fun mem => present (mem_filter.mp mem).1
  have zero : (∀ e ∈ f.broker.news t, e.demand cfg p = 0) →
      ((f.broker.news t).map (Event.demand cfg p)).sum = 0 := by
    intro none
    exact sum_eq_zero fun n mem => by
      obtain ⟨e, made, rfl⟩ := mem_map.mp mem
      exact none e made
  unfold Fleet.waitingFor
  by_cases loop : ∃ x i e, act = .loop x i e
  · obtain ⟨x, i, e, rfl⟩ := loop
    cases h with
    | loop found taken =>
      have others : ∀ y, y ≠ x → managerOf (cfg.scheduler y) = p →
          (y ∈ (f.turned (.loop x i e) t).waiting ↔ y ∈ f.waiting) :=
        fun y differs own =>
          still y own (fun j d same => differs (by cases same; rfl)) (by simp [Fleet.taken])
      by_cases own : managerOf (cfg.scheduler x) = p
      · cases ((L x own).looped (S x own) P found (ok.2 own _ found) taken).2 with
        | same stays silent =>
          rw [zero fun e mem => silent e mem p, length_filter_of_same nodup nodup' fun y holds => ?_]
          · omega
          · by_cases same : y = x
            · rw [same]
              exact stays
            · exact others y same (by simpa using holds)
        | asked absent present news =>
          rw [news, length_filter_of_new nodup nodup' (by simpa using own) absent present
            fun y differs holds => others y differs (by simpa using holds)]
          simp [Event.demand, own]
        | left present absent news =>
          have less := length_filter_of_new (q := fun x => managerOf (cfg.scheduler x) = p) nodup'
            nodup (by simpa using own) absent present
            fun y differs holds => (others y differs (by simpa using holds)).symm
          rw [news, less]
          simp [Event.demand, own]
      · rw [zero (demand_of_loop (.loop found taken) own),
          length_filter_of_same nodup nodup' fun y holds => ?_]
        · omega
        · exact others y (fun same => own (same ▸ by simpa using holds)) (by simpa using holds)
  · have other : ∀ x i e, act ≠ .loop x i e := fun x i e same => loop ⟨x, i, e, same⟩
    by_cases takes : ∃ a r, Takes f.broker act a r ∧ managerOf (cfg.agentPool a) = p
    · obtain ⟨a, r, took, pool⟩ := takes
      obtain ⟨n, news⟩ := took.news h
      obtain ⟨rfl, ⟨rest, queue⟩, accept, goes, new⟩ := took
      have first : r.isFirst cfg r.session = true := by
        have release := (ok.2 pool r (by simp [queue]) accept).2
        rw [new] at release
        exact SessionRequest.isFirst_iff.mpr ⟨accept, release.symm, rfl⟩
      have some := Net.firsts_ne_zero queue first
      have own : managerOf (cfg.scheduler r.session) = p := home a r.session some ▸ pool
      have present : r.session ∈ f.waiting := by
        cases L r.session own with
        | quiet _ unsent => exact absurd (unsent a) some
        | queued present => exact present
        | sent present => exact present
      have took := Fleet.taken_of_first first queue goes
      have absent : r.session ∉ (f.turned (.agent a .sessionReq) t).waiting := by
        refine Fleet.notMem_records ?_ (not_asks_of_step h (by simp))
        simp [took]
      have less := length_filter_of_new (q := fun x => managerOf (cfg.scheduler x) = p) nodup'
        nodup (by simpa using own) absent present fun y differs holds =>
          (still y (by simpa using holds) (by simp) (by rw [took]; simpa using differs.symm)).symm
      rw [news, less]
      simp [Event.demand, pool]
    · rw [zero fun e mem => ?_, length_filter_of_same nodup nodup' fun y holds => ?_]
      · omega
      · refine still y (by simpa using holds) (other y) fun took => takes ?_
        obtain ⟨a, r, rest, rfl, queue, first, goes⟩ := Fleet.taken_cases took
        obtain ⟨accept, plain, own⟩ := SessionRequest.isFirst_iff.mp first
        have pool : managerOf (cfg.agentPool a) = p := by
          rw [← home a y (Net.firsts_ne_zero queue first)]
          simpa using holds
        have release := (ok.2 pool r (by simp [queue]) accept).2
        exact ⟨a, r, ⟨rfl, ⟨rest, queue⟩, accept, goes, release.trans plain⟩, pool⟩
      · by_contra some
        obtain ⟨a, r, turn, made⟩ := turn_of_demand h mem some other
        obtain ⟨pool, ⟨rfl, busy⟩ | ⟨q, took⟩⟩ := turn.demand made some
        · exact absurd (ok.2 pool) (Nat.ne_of_gt busy)
        · exact takes ⟨a, q, took, pool⟩

structure Balanced (p : String) (f : Fleet cfg) : Prop where
  nodup : f.waiting.Nodup
  ledger : ∀ x, managerOf (cfg.scheduler x) = p → Ledger f.broker x (x ∈ f.waiting)
  count : (f.pools p).pendingSessions = (f.waitingFor p).length

structure Ordered (p : String) (s : State cfg) : Prop where
  sound : ∀ x, managerOf (cfg.scheduler x) = p → (s.sessions x).Sound
  fresh : s.Fresh
  paired : Paired s.net
  home : ∀ a x, s.net.firsts a x ≠ 0 → cfg.scheduler x = cfg.agentPool a

lemma ordered_of_reachable (h : Reachable Fleet.step (Metered p) Fleet.init f) :
    Ordered p f.broker := by
  have reached : Reachable step Any .init f.broker :=
    Fleet.broker_reachable (fun _ _ _ _ => trivial) (fun _ _ => trivial) h
  refine ⟨fun x own => ?_, fresh_of_reachable reached, paired_of_reachable reached,
    homed_of_reachable reached⟩
  have resumed : Reachable step (Resumed x) .init f.broker :=
    Fleet.broker_reachable (fun _ _ _ ok => ok.resumed own) (fun _ _ => trivial) h
  exact sound_of_reachable (fun _ _ => id) resumed

lemma Ledger.told (L : Ledger s x waits) (c : AgentPtr → Nat) :
    Ledger (s.modifyNet fun n => { n with statusChan := c }) x waits := by
  cases L with
  | quiet rests unsent placid => exact .quiet rests unsent placid
  | queued asks unsent one state => exact .queued asks unsent one state
  | sent asks moved own all busy => exact .sent asks moved own all busy

lemma Balanced.step {act : Fleet.Action} (B : Balanced p f) (O : Ordered p f.broker)
    (ok : Metered p f act) (h : f.step act = some g) : Balanced p g := by
  rcases Fleet.step_cases h with ⟨b, os, t, rfl, -, stepped, delivered⟩ | ⟨name, op, rfl, own, applied⟩
  · obtain ⟨waiting, c, broker⟩ := Fleet.broker_deliver delivered
    have taken := (Broker.step_cases stepped).2
    refine ⟨?_, fun x own => ?_, ?_⟩
    · rw [waiting]
      exact Fleet.nodup_records (B.nodup.filter _)
    · rw [waiting, broker]
      exact ((B.ledger x own).step own (O.sound x own) O.fresh O.paired ok taken).told c
    · have moved := demand_of_step B.nodup O.sound O.paired O.home B.ledger ok taken
      have counted := Fleet.pendingSessions_deliver delivered p
      rw [counted, Fleet.waitingFor, waiting]
      have before := B.count
      unfold Fleet.waitingFor at moved before
      rw [moved, ← before]
      rfl
  · obtain ⟨waiting, c, broker⟩ := Fleet.broker_apply applied
    refine ⟨by rw [waiting]; exact B.nodup, fun x own => ?_, ?_⟩
    · rw [waiting, broker]
      exact (B.ledger x own).told c
    · have counted := Fleet.pendingSessions_apply applied p fun count now nodes batch same => by
        subst batch
        exact ok same
      have none : op.demand = 0 := by cases op <;> first | rfl | cases own
      rw [counted, none, Fleet.waitingFor, waiting, ite_self, Int.add_zero]
      exact B.count

/-- A pool counts the sessions that wait for one of its workers. -/
theorem demand_counted (p : String) {f : Fleet cfg}
    (h : Reachable Fleet.step (Metered p) Fleet.init f) :
    (f.pools p).pendingSessions = (f.waitingFor p).length := by
  have balanced : Balanced p f := by
    refine Reachable.invariant_of (K := fun f : Fleet cfg => Ordered p f.broker)
      (I := Balanced p) (fun _ => ordered_of_reachable) ⟨nodup_nil, fun x _ => ?_, rfl⟩
      (fun f act g O B ok taken => B.step O ok taken) h
    exact .quiet (by simp [Fleet.init]) (fun _ => rfl) (by simp [Fleet.init, State.init])
  exact balanced.count

theorem demand_counted_one :
    ∃ f : Fleet (pool 1), Reachable Fleet.step (Metered "pool") Fleet.init f ∧
      f.waitingFor "pool" = [2] ∧ (f.pools "pool").pendingSessions = (f.waitingFor "pool").length := by
  obtain ⟨f, reached, waits⟩ :=
    exists_of_run Fleet.step (Metered "pool") (Fleet.init : Fleet (pool 1))
      (Fleet.plain (List.flatten [joins 0, submits 0 0, accepts 0 0, starts (pool 1) 0 0,
        submits 1 0, [.kill 1 false, .loop 1 0 .cancelSignal, .scheduler "pool" .removeSession 0,
        .loop 1 0 .cancelConfirm], submits 2 0]))
      (fun f => f.waitingFor "pool" = [2]) (by decide +kernel)
  exact ⟨f, reached, waits, demand_counted "pool" reached⟩

/-- An agent that was told to shut down takes a session before it reads the request; and an agent
that stops refuses a session. -/
theorem demand_miscounted :
    (∃ f : Fleet (pool 1), Reachable Fleet.step Fleet.Unblocked Fleet.init f ∧
      f.waitingFor "pool" = [] ∧ (f.pools "pool").pendingSessions = -1) ∧
    ∃ f : Fleet (pool 1), Reachable Fleet.step Fleet.Unblocked Fleet.init f ∧
      f.waitingFor "pool" = [] ∧ (f.pools "pool").pendingSessions = 1 := by
  refine ⟨?_, ?_⟩
  · exact exists_of_run _ _ _
      (List.flatten [[.pool "pool" (.updateConfig { backend := some ⟨0, false⟩, maxSize := 5 } {}),
        .broker (.connect 0) [], .broker (.startAgent 0) [{ picks := ["0"] }]],
        Fleet.plain [.scheduler "pool" .addAgent 0, .addSession 0, .schedule 0 (.caller 0)],
        [.broker (.loop 0 0 (.quota true)) [{ scaleUps := [(1, none)] }]],
        Fleet.plain [.scheduler "pool" .addSession 0, .loop 0 0 .agent, .agent 0 .sessionReq],
        [.broker (.agent 0 .shutdown) [{ picks := [""] }]]]) _ (by decide +kernel)
  · exact exists_of_run _ _ _
      (Fleet.plain (List.flatten [joins 0, submits 0 0, [.loop 0 0 .agent, .agent 0 .done,
        .agent 0 .sessionReq, .loop 0 0 .response]])) _ (by decide +kernel)

end Velda.Broker
