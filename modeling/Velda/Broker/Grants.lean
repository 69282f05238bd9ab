import Velda.Broker.Quota

/-! Conservation of quota grants. A session ends with its grant returned and its monitoring
goroutine told to stop, provided that the goroutine sits in its `select` at that time, and that
nobody asks for quota while a grant is held. -/
variable {q : Quota} {y : Session} {i : Nat} {g : Monitor}

namespace Velda.Broker
open Lib List AgentOutput State Session Event ExecutionStatus Session State

variable {cfg : Config}

def ExecutionStatus.placed : ExecutionStatus → Bool
  | .running | .stale => true
  | _ => false

/-- What a step that makes `z` of session `x` has to do with its quota. -/
structure Followed (s t : State cfg) (act : Action) (x : SessionPtr) (z : Session) : Prop where
  ended : z.status.ended = true → (s.sessions x).status.ended = true ∨
    (s.news t).filterMap (record x) ≠ []
  placed : z.status.placed = true → (s.sessions x).status.placed = true ∨
    s.starting x act = true ∨ x ∉ s.created
  started : (s.sessions x).startTime ≠ none → z.startTime ≠ none ∨ x ∉ s.created

namespace Followed
variable {s t : State cfg} {act : Action} {x : SessionPtr} {z : Session}

lemma of_status (status : z.status = (s.sessions x).status)
    (time : z.startTime = (s.sessions x).startTime) : Followed s t act x z where
  ended past := .inl (status ▸ past)
  placed runs := .inl (status ▸ runs)
  started set := .inl (time ▸ set)

lemma unmade (absent : x ∉ s.created) (going : z.status.ended = false) :
    Followed s t act x z where
  ended past := by
    rw [going] at past
    cases past
  placed _ := .inr (.inr absent)
  started _ := .inr absent

lemma waits (going : z.status.ended = false) (idle : z.status.placed = false)
    (time : z.startTime = (s.sessions x).startTime) : Followed s t act x z where
  ended past := by
    rw [going] at past
    cases past
  placed runs := by
    rw [idle] at runs
    cases runs
  started set := .inl (time ▸ set)

lemma finished (record : (s.news t).filterMap (record x) ≠ [])
    (idle : z.status.placed = false) (time : z.startTime = (s.sessions x).startTime) :
    Followed s t act x z where
  ended _ := .inr record
  placed runs := by
    rw [idle] at runs
    cases runs
  started set := .inl (time ▸ set)

lemma markStale (r : Request) (done : Ctx → Bool) (time : Time) :
    Followed s t act x ((s.sessions x).markStale r done time) := by
  unfold Session.markStale
  split
  · next running =>
    split
    · exact ⟨fun past => (nomatch past), fun _ => .inl (by rw [running]; rfl), .inl⟩
    · exact .of_status rfl rfl
  · exact .waits rfl rfl rfl
  · exact .of_status rfl rfl

lemma schedule (ctx : Ctx) : Followed s t act x ((s.sessions x).schedule ctx) :=
  schedule_rule (I := Followed s t act x) (.of_status rfl rfl)
    (fun _ _ => .of_status rfl rfl) fun _ _ _ => .waits rfl rfl rfl

end Followed

lemma Session.placed_finish (y : Session) (final : FinalState) :
    (y.finish final).status.placed = false := by
  rcases y.status_finish final with status | status <;> rw [status] <;> rfl

lemma LoopStep.followed (h : LoopStep s x i l e t) (found : (s.sessions x).loops[i]? = some l) :
    Followed s t (.loop x i e) x (t.sessions x) := by
  cases h with
  | noCtx | notReconnected => exact .of_status rfl rfl
  | refused | shutdown | failed | confirmed | cancelShutdown | declined | staleShutdown =>
    refine .finished (by simp [news_turned, record]) ?_ ?_
    · simp [turned, finishLoop, endLoop, placed_finish]
    · simp [turned, finishLoop, endLoop, finish]
  | lost =>
    refine .finished ?_ ?_ ?_
    · rw [news_turned]
      cases (s.sessions x).agent <;> simp [record]
    · simp [turned, finishLoop, endLoop, placed_finish]
    · simp [turned, finishLoop, endLoop, finish]
  | hold =>
    refine .waits ?_ ?_ ?_ <;>
      simp [notifyGang, turned, endLoop, ended,
        placed]
  | started state took =>
    obtain ⟨rest, queue, -⟩ := Net.takeResponse_cases took
    refine ⟨fun past => ?_, fun _ => .inr (.inl ?_), fun _ => .inl ?_⟩
    · simp [turned, updateFromAgentResponse, endLoop,
        ended] at past
    · simp [starting, found, state, queue]
    · simp [turned, updateFromAgentResponse, endLoop]
  | reschedule =>
    refine .waits ?_ ?_ ?_ <;>
      simp [turned, setLoop, ended, placed]
  | staleSignal | staleRefresh =>
    simp only [turned, Function.update_self, refresh]
    split <;> exact .of_status rfl rfl
  | _ =>
    refine .of_status ?_ ?_ <;>
      simp [turned, setLoop, takeSignal, endLoop]

lemma followed_of_step (h : Step s act t) (x : SessionPtr) : Followed s t act x (t.sessions x) := by
  refine session_of_turn (I := Followed s t act x) h x (.of_status rfl rfl) (fun a r turn => ?_)
    (fun _ unused => .unmade unused.1 rfl) (fun _ _ unused => .unmade unused.1 rfl)
    (fun ctx _ _ => .schedule ctx) (fun _ _ _ _ => ?_) fun i l e own found taken => ?_
  · have affected := turn.affected x
    have news := records_filter x r.2
    rw [← turn.news h] at news
    rw [onSessions_filter]
    generalize r.2.filter (affects x) = outs at affected news ⊢
    cases affected with
    | none => exact .of_status rfl rfl
    | stale l time mem =>
      simpa [onSessions, onSession, mem] using .markStale _ _ _
    | complete =>
      refine .finished (by simp [news, AgentOutput.events, record]) ?_ ?_
      · simp [onSessions, onSession, placed_finish]
      · simp [onSessions, onSession, finish]
    | checkpointed =>
      refine .finished (by simp [news, AgentOutput.events, record]) ?_ ?_
      · simp [onSessions, onSession, placed]
      · simp [onSessions, onSession]
  · refine .of_status (terminal_signal _) ?_
    unfold signal
    split <;> rfl
  · subst own
    exact taken.followed found

lemma status_of_asks (h : Step s act t) (asks : act.asks x = true) :
    (t.sessions x).status = (s.sessions x).status := by
  cases h with
  | @loop y i l e _ found taken =>
    cases taken with
    | enqueue =>
      have own : y = x := by simpa [Action.asks] using asks
      subst own
      simp [State.turned, Session.setLoop]
    | staleRefresh kind => rcases kind with rfl | rfl <;> cases asks
    | _ => cases asks
  | _ => cases asks

lemma status_of_starting (h : Step s act t) (starting : s.starting x act = true) :
    (t.sessions x).status = .running ∧ (t.sessions x).startTime ≠ none := by
  cases h with
  | @loop y i l e _ found taken =>
    have own : e = .response → y = x := by
      rintro rfl
      simp only [State.starting, Bool.and_eq_true, decide_eq_true_eq] at starting
      exact starting.1.1
    cases taken with
    | started =>
      obtain rfl := own rfl
      simp [State.turned, Session.updateFromAgentResponse, Session.endLoop]
    | failed state took =>
      obtain rfl := own rfl
      obtain ⟨rest, queue, -⟩ := Net.takeResponse_cases took
      simp [State.starting, queue] at starting
    | killStarted state | killDone state =>
      obtain rfl := own rfl
      simp [State.starting, found, state] at starting
    | staleRefresh kind => rcases kind with rfl | rfl <;> cases starting
    | _ => cases starting
  | _ => cases starting

namespace Monitor

/-- The goroutine waits in its `select` for a channel that is closed. -/
def told (closed : List Nat) : Monitor → Bool
  | .waiting (some done) => done ∈ closed
  | _ => false

lemma told_cons {closed : List Nat} (h : g.told closed = true) (c : Nat) :
    g.told (c :: closed) = true := by
  unfold told at h ⊢
  split <;> simp_all

def blocked : Monitor → Bool
  | .waiting _ => true
  | _ => false

def Tuned (q : Quota) (done : Nat) : Monitor → Prop
  | .ready => True
  | .asked previous => previous = q.quotaGrant
  | .stored => q.quotaGrant ≠ none
  | .waiting channel => channel = some done ∧ q.quotaGrant ≠ none

end Monitor

def QuotaCall.supersedes (grant : Nat) : QuotaCall → Bool
  | .granted _ previous => previous = some grant
  | .returned _ => false

namespace Quota

/-- The ways in which a grant is accounted for: calls that return it, later grants that name it
as the previous one, and the session that holds it. -/
def balance (q : Quota) (grant : Nat) : Nat :=
  q.calls.count (.returned grant) + q.calls.countP (QuotaCall.supersedes grant) +
    if q.quotaGrant = some grant then 1 else 0

/-- All monitoring goroutines are told to stop. -/
def Quiet (q : Quota) : Prop := ∀ g ∈ q.monitors, g.told q.closed = true

instance (q : Quota) : Decidable q.Quiet := inferInstanceAs (Decidable (∀ g ∈ q.monitors, _))

structure Channels (q : Quota) : Prop where
  bounded : (∀ c ∈ q.closed, c < q.channels) ∧ ∀ c ∈ q.quotaCheckDone, c < q.channels
  nodup : q.closed.Nodup
  calm : q.panicked = false

/-- The quota of a session `y` is accounted for, and at most one goroutine monitors it. -/
structure Watched (q : Quota) (y : Session) : Prop extends Channels q where
  ledger : ∀ grant, q.balance grant = if grant < q.grants then 1 else 0
  one : q.monitors.countP (fun g => !g.told q.closed) ≤ 1
  active : ∀ g ∈ q.monitors, g.told q.closed = false → y.status.ended = false ∧
    y.startTime ≠ none ∧ ∃ done, q.quotaCheckDone = some done ∧ done ∉ q.closed ∧ g.Tuned q done
  opened : y.status.placed = true → q.quotaGrant ≠ none →
    ∃ done, q.quotaCheckDone = some done ∧ done ∉ q.closed
  ended : y.status.ended = true → q.quotaGrant = none

lemma Watched.fresh (z : Session) : Watched {} z where
  ledger grant := by simp [balance]
  one := by simp
  active := by simp
  opened := by simp
  ended _ := rfl
  bounded := by simp
  nodup := nodup_nil
  calm := rfl

variable {z : Session}

lemma Watched.follow (W : q.Watched y) (ended : z.status.ended = true → y.status.ended = true)
    (placed : z.status.placed = true → y.status.placed = true)
    (started : y.startTime ≠ none → z.startTime ≠ none) : q.Watched z where
  ledger := W.ledger
  one := W.one
  active g mem untold := by
    obtain ⟨going, time, tuned⟩ := W.active g mem untold
    refine ⟨?_, started time, tuned⟩
    by_contra past
    have past := ended (by simpa using past)
    rw [going] at past
    cases past
  opened runs := W.opened (placed runs)
  ended past := W.ended (ended past)
  toChannels := ⟨W.bounded, W.nodup, W.calm⟩

lemma balance_granted (ledger : ∀ grant, q.balance grant = if grant < q.grants then 1 else 0)
    (grant : Nat) : (q.granted q.quotaGrant).balance grant =
      if grant < (q.granted q.quotaGrant).grants then 1 else 0 := by
  have new : (if grant < q.grants + 1 then 1 else 0) =
      (if grant < q.grants then 1 else 0) + if q.grants = grant then 1 else 0 := by
    split_ifs <;> omega
  have counted : (q.granted q.quotaGrant).balance grant =
      q.balance grant + if q.grants = grant then 1 else 0 := by
    simp only [balance, granted, count_cons, countP_cons, QuotaCall.supersedes,
      decide_eq_true_eq, Option.some.injEq, beq_iff_eq, reduceCtorEq, if_false]
    ring
  rw [counted, ledger]
  exact new.symm

lemma Watched.checkQuota (W : q.Watched y) (none : q.quotaGrant = none) (quiet : q.Quiet)
    (status : z.status = .queueing) : q.checkQuota.Watched z where
  ledger := by
    have ledger := balance_granted W.ledger
    rwa [none] at ledger
  one := W.one
  active g mem untold := by
    have told : g.told q.closed = true := quiet g mem
    rw [Quota.checkQuota, granted, told] at untold
    cases untold
  opened runs := by
    rw [status] at runs
    cases runs
  ended past := by
    rw [status] at past
    cases past
  toChannels := ⟨W.bounded, W.nodup, W.calm⟩

lemma Watched.startQuotaMonitoring (W : q.Watched y) (quiet : q.Quiet)
    (status : z.status = .running) (time : z.startTime ≠ none) :
    q.startQuotaMonitoring.Watched z := by
  have unused : q.channels ∉ q.closed := fun mem => absurd (W.bounded.1 _ mem) (lt_irrefl _)
  refine ⟨⟨⟨fun c mem => ?_, ?_⟩, W.nodup, W.calm⟩, W.ledger, ?_,
    fun g mem untold => ⟨by rw [status]; rfl, time, q.channels, rfl, unused, ?_⟩,
    fun _ _ => ⟨q.channels, rfl, unused⟩, fun past => ?_⟩
  · exact (W.bounded.1 c mem).trans (Nat.lt_succ_self _)
  · rintro c ⟨⟩
    exact Nat.lt_succ_self _
  · have none : q.monitors.countP (fun g => !g.told q.closed) = 0 :=
      countP_eq_zero.mpr fun g mem => by simp [quiet g mem]
    rw [Quota.startQuotaMonitoring, countP_append, none]
    exact le_rfl
  · rcases mem_append.mp mem with old | new
    · have told : g.told q.closed = true := quiet g old
      rw [Quota.startQuotaMonitoring, told] at untold
      cases untold
    · rw [mem_singleton.mp new]
      trivial
  · rw [status] at past
    cases past

lemma Watched.of_quiet (z : Session) (none : q.quotaGrant = none) (quiet : q.Quiet)
    (ledger : ∀ grant, q.balance grant = if grant < q.grants then 1 else 0)
    (channels : q.Channels) : q.Watched z where
  toChannels := channels
  ledger := ledger
  one := by
    rw [countP_eq_zero.mpr fun g mem => by simp [quiet g mem]]
    exact Nat.zero_le 1
  active g mem untold := by
    rw [quiet g mem] at untold
    cases untold
  opened _ held := absurd none held
  ended _ := none

lemma balance_returned {held : Nat} (h : q.quotaGrant = some held) (closed : List Nat)
    (grant : Nat) :
    ({ q with quotaGrant := none, closed := closed, calls := .returned held :: q.calls } :
      Quota).balance grant = q.balance grant := by
  simp only [balance, count_cons, countP_cons, QuotaCall.supersedes, h, beq_iff_eq,
    QuotaCall.returned.injEq, Option.some.injEq, reduceCtorEq, if_false]
  ring

lemma Watched.waiting (W : q.Watched y) (mem : g ∈ q.monitors) (blocked : g.blocked = true) :
    g.told q.closed = true ∨ y.startTime ≠ none ∧ q.quotaGrant ≠ none ∧
        ∃ done, q.quotaCheckDone = some done ∧ g = .waiting (some done) := by
  cases told : g.told q.closed with
  | true => exact .inl rfl
  | false =>
    obtain ⟨-, time, done, current, -, tuned⟩ := W.active g mem told
    cases g with
    | waiting channel =>
      obtain ⟨rfl, held⟩ := tuned
      exact .inr ⟨time, held, done, current, rfl⟩
    | _ => cases blocked

lemma Watched.returnQuota (W : q.Watched y) (blocked : ∀ g ∈ q.monitors, g.blocked = true)
    (placed : q.quotaGrant ≠ none → y.startTime ≠ none → y.status.placed = true) (z : Session) :
    (q.returnQuota y.startTime).Watched z := by
  unfold Quota.returnQuota
  split
  · next none =>
    refine .of_quiet z none (fun g mem => ?_) W.ledger W.toChannels
    rcases W.waiting mem (blocked g mem) with told | ⟨-, held, -⟩
    · exact told
    · exact absurd none held
  · next grant held =>
    split
    · next unstarted =>
      refine .of_quiet z rfl (fun g mem => ?_) (fun g => ?_) ⟨W.bounded, W.nodup, W.calm⟩
      · rcases W.waiting mem (blocked g mem) with told | ⟨time, -⟩
        · exact told
        · exact absurd unstarted time
      · exact (balance_returned held q.closed g).trans (W.ledger g)
    · next time =>
      obtain ⟨done, current, isOpen⟩ := W.opened (placed (by simp [held]) time) (by simp [held])
      simp only [current, if_neg isOpen]
      refine .of_quiet z rfl (fun g mem => ?_) (fun g => ?_)
        ⟨⟨fun c mem => ?_, fun c mem => W.bounded.2 c (by rwa [current])⟩,
          nodup_cons.mpr ⟨isOpen, W.nodup⟩, W.calm⟩
      · rcases W.waiting mem (blocked g mem) with told | ⟨-, -, channel, same, rfl⟩
        · exact Monitor.told_cons told done
        · rw [current] at same
          cases same
          simp [Monitor.told]
      · exact (balance_returned held (done :: q.closed) g).trans (W.ledger g)
      · rcases mem_cons.mp mem with rfl | old
        · exact W.bounded.2 c current
        · exact W.bounded.1 c old

lemma mem_set_of_index {l : List Monitor} (found : l[i]? = some a) (mem : b ∈ l.set i c) :
    b = c ∨ b ∈ l.eraseIdx i := by
  obtain ⟨bound, -⟩ := List.getElem?_eq_some_iff.mp found
  have bound : i < (l.set i c).length := by rwa [length_set]
  have split := (getElem_cons_eraseIdx_perm bound).mem_iff.mpr mem
  rw [getElem_set_self, eraseIdx_set_eq] at split
  exact mem_cons.mp split

lemma Watched.others (W : q.Watched y) (found : q.monitors[i]? = some g)
    (untold : g.told q.closed = false) : ∀ h ∈ q.monitors.eraseIdx i, h.told q.closed = true := by
  obtain ⟨bound, rfl⟩ := List.getElem?_eq_some_iff.mp found
  have counted := (getElem_cons_eraseIdx_perm bound).countP_eq
  have one := W.one
  rw [← counted, countP_cons, untold] at one
  have none : (q.monitors.eraseIdx i).countP (fun g => !g.told q.closed) = 0 := by
    simpa using one
  intro h mem
  simpa using countP_eq_zero.mp none h mem

lemma Watched.advance (W : q.Watched y) {h : Monitor} (found : q.monitors[i]? = some g)
    (untold : g.told q.closed = false) {quotaGrant : Option Nat} {grants : Nat}
    {calls : List QuotaCall}
    (made : p = { q with monitors := q.monitors.set i h, quotaGrant, grants, calls })
    (ledger : ∀ grant, p.balance grant = if grant < p.grants then 1 else 0)
    (tuned : ∀ done, q.quotaCheckDone = some done → g.Tuned q done → h.Tuned p done) :
    p.Watched y := by
  subst made
  obtain ⟨going, time, done, current, isOpen, known⟩ :=
    W.active g (mem_of_getElem? found) untold
  have others := W.others found untold
  refine ⟨⟨W.bounded, W.nodup, W.calm⟩, ledger, ?_, fun b mem fresh => ?_,
    fun _ _ => ⟨done, current, isOpen⟩, fun past => ?_⟩
  · obtain ⟨bound, rfl⟩ := List.getElem?_eq_some_iff.mp found
    have one := W.one
    rw [countP_set bound, untold]
    simp only [Bool.not_false, if_true]
    split <;> omega
  · rcases mem_set_of_index found mem with rfl | other
    · exact ⟨going, time, done, current, isOpen, tuned done current known⟩
    · rw [others b other] at fresh
      cases fresh
  · rw [going] at past
    cases past

lemma Watched.leave (W : q.Watched y) (i : Nat) :
    ({ q with monitors := q.monitors.eraseIdx i } : Quota).Watched y where
  ledger := W.ledger
  one := (q.monitors.eraseIdx_sublist i).countP_le.trans W.one
  active g mem := W.active g (mem_of_mem_eraseIdx mem)
  opened := W.opened
  ended := W.ended
  toChannels := ⟨W.bounded, W.nodup, W.calm⟩

lemma Watched.monitorTurn {e : MonitorEvent} (W : q.Watched y) (h : q.monitorTurn i e = some p)
    (timely : e = .timer → ∀ g ∈ q.monitors[i]?, g.told q.closed = false) : p.Watched y := by
  unfold Quota.monitorTurn at h
  split at h
  · next ready =>
    cases h
    exact W.advance ready rfl rfl W.ledger fun _ _ _ => rfl
  · next previous asked =>
    cases h
    obtain ⟨_, _, _, _, _, same⟩ := W.active _ (mem_of_getElem? asked) rfl
    cases same
    exact W.advance asked rfl rfl (balance_granted W.ledger)
      fun _ _ _ => Option.some_ne_none _
  · cases h
    exact W.leave i
  · next stored =>
    cases h
    exact W.advance stored rfl rfl W.ledger
      fun _ current held => ⟨current, held⟩
  · next waiting =>
    cases h
    exact W.advance waiting (timely rfl _ waiting) rfl W.ledger
      fun _ _ _ => trivial
  · split at h
    · cases h
      exact W.leave i
    · cases h
  · cases h

end Quota

lemma Quota.Watched.followed (W : q.Watched (s.sessions x)) (h : Step s act t)
    (known : x ∈ s.created) (none : (s.news t).filterMap (record x) = [])
    (idle : s.starting x act = false) : q.Watched (t.sessions x) := by
  have F := followed_of_step h x
  refine W.follow (fun past => ?_) (fun runs => ?_) fun set => ?_
  · exact (F.ended past).resolve_right fun some => some none
  · refine (F.placed runs).resolve_right ?_
    rintro (starting | absent)
    · rw [idle] at starting
      cases starting
    · exact absent known
  · exact (F.started set).resolve_right fun absent => absent known

def Action.looping : Action → Option SessionPtr
  | .loop x _ _ => some x
  | _ => none

variable {m : Rationed cfg}

namespace Rationed

/-- The end of the session finds its goroutines in their `select`, and if it holds a grant and ran
before, it finds the session running or stale. -/
def Settled (m : Rationed cfg) (x : SessionPtr) : Prop :=
  (∀ g ∈ (m.quotas x).monitors, g.blocked = true) ∧
    ((m.quotas x).quotaGrant ≠ none → (m.broker.sessions x).startTime ≠ none →
      (m.broker.sessions x).status.placed = true)

instance (m : Rationed cfg) (x : SessionPtr) : Decidable (m.Settled x) :=
  inferInstanceAs (Decidable (_ ∧ _))

/-- Sessions end when they are settled; a queueing session asks for quota when it holds none and no
goroutine of an earlier run monitors it, and the same goroutine is gone when it starts to run; a
goroutine that is told to stop does not look at its timer. -/
def Orderly (m : Rationed cfg) : RationedAction → Prop
  | .broker act =>
    (∀ t ∈ Broker.step m.broker act, ∀ e ∈ m.broker.news t, ∀ x ∈ e.recorded, m.Settled x) ∧
      ∀ x ∈ act.looping,
        (act.asks x = true → (m.broker.sessions x).status = .queueing ∧
          (m.quotas x).quotaGrant = none ∧ (m.quotas x).Quiet) ∧
        (m.broker.starting x act = true → (m.quotas x).Quiet)
  | .monitor x i .timer => ∀ g ∈ (m.quotas x).monitors[i]?, g.told (m.quotas x).closed = false
  | .monitor _ _ _ => True

instance (m : Rationed cfg) (act : RationedAction) : Decidable (m.Orderly act) := by
  induction act using RationedAction.casesOn with
  | broker act => exact inferInstanceAs (Decidable (_ ∧ _))
  | monitor x i e => induction e using MonitorEvent.casesOn <;> unfold Orderly <;> infer_instance

/-- The quota of every session is accounted for; that of a session to come is untouched. -/
structure Sound (m : Rationed cfg) : Prop where
  watched : ∀ x, (m.quotas x).Watched (m.broker.sessions x)
  unmade : ∀ x ∉ m.broker.created, m.quotas x = {}
  alive : m.crashed = false

lemma foldl_returnQuota (startTime : Option Time) (q : Quota) (records : List FinalState) :
    records.foldl (fun q _ => q.returnQuota startTime) q =
      if records = [] then q else q.returnQuota startTime := by
  have empty : ∀ p : Quota, p.quotaGrant = none → p.returnQuota startTime = p := by
    intro p none
    simp [Quota.returnQuota, none]
  have returned : (q.returnQuota startTime).quotaGrant = none := by
    unfold Quota.returnQuota
    split
    · assumption
    · split
      · rfl
      · split
        · rfl
        · split <;> rfl
  have rest : ∀ l : List FinalState,
      l.foldl (fun q _ => q.returnQuota startTime) (q.returnQuota startTime) =
        q.returnQuota startTime := by
    intro l
    induction l with
    | nil => rfl
    | cons _ l ih => rw [foldl_cons, empty _ returned, ih]
  cases records with
  | nil => rfl
  | cons _ l => simpa using rest l

inductive Turned (m : Rationed cfg) (act : Action) (t : State cfg) (x : SessionPtr) : Quota → Prop
  | asked : act.looping = some x → act.asks x = true →
      Turned m act t x (m.quotas x).checkQuota
  | started : act.looping = some x → m.broker.starting x act = true →
      Turned m act t x (m.quotas x).startQuotaMonitoring
  | returned {e : Event} : e ∈ m.broker.news t → e.recorded = some x →
      Turned m act t x ((m.quotas x).returnQuota (m.broker.sessions x).startTime)
  | spared : (m.broker.news t).filterMap (record x) = [] → m.broker.starting x act = false →
      Turned m act t x (m.quotas x)

lemma turned_cases (m : Rationed cfg) (act : Action) (t : State cfg) (x : SessionPtr) :
    m.Turned act t x ((m.turned act t).quotas x) := by
  simp only [turned, Quota.turn]
  split
  · next asks =>
    refine .asked ?_ asks
    unfold Action.asks at asks
    split at asks
    · simpa [Action.looping] using asks
    · cases asks
  · split
    · next starting =>
      refine .started ?_ starting
      unfold State.starting at starting
      split at starting
      · simp only [Bool.and_eq_true, decide_eq_true_eq] at starting
        simp [Action.looping, starting.1.1]
      · cases starting
    · next idle =>
      rw [foldl_returnQuota]
      split
      · next none => exact .spared none (by simpa using idle)
      · next some =>
        obtain ⟨final, mem⟩ := exists_mem_of_ne_nil _ some
        obtain ⟨e, logged, record⟩ := mem_filterMap.mp mem
        refine .returned logged ?_
        unfold Event.record at record
        split at record
        · simp_all [recorded]
        · cases record

variable {t : State cfg} {x : SessionPtr}

lemma Sound.broker (S : m.Sound) (taken : Broker.step m.broker act = some t)
    (fresh : m.broker.Fresh) (orderly : m.Orderly (.broker act)) : (m.turned act t).Sound := by
  have h := (Broker.step_cases taken).2
  have watched : ∀ x, ((m.turned act t).quotas x).Watched (t.sessions x) := by
    intro x
    have W := S.watched x
    have turned := m.turned_cases act t x
    generalize (m.turned act t).quotas x = q at turned ⊢
    cases turned with
    | asked own asks =>
      obtain ⟨status, none, quiet⟩ := (orderly.2 x own).1 asks
      exact W.checkQuota none quiet ((status_of_asks h asks).trans status)
    | started own starting =>
      obtain ⟨status, time⟩ := status_of_starting h starting
      exact W.startQuotaMonitoring ((orderly.2 x own).2 starting) status time
    | returned logged record =>
      obtain ⟨blocked, placed⟩ := orderly.1 t taken _ logged x record
      exact W.returnQuota blocked placed _
    | spared none idle =>
      by_cases known : x ∈ m.broker.created
      · exact W.followed h known none idle
      · rw [S.unmade x known]
        exact .fresh _
  refine ⟨watched, fun x absent => ?_, ?_⟩
  · have unmade : x ∉ m.broker.created := fun known => absent (created_of_step h known)
    have loops := (fresh x unmade).loops
    have looping : act.looping ≠ some x := by
      intro own
      cases h with
      | loop found =>
        cases own
        rw [loops] at found
        cases found
      | _ => cases own
    have turned := m.turned_cases act t x
    generalize (m.turned act t).quotas x = q at turned ⊢
    cases turned with
    | asked own | started own => exact absurd own looping
    | returned =>
      rw [S.unmade x unmade]
      rfl
    | spared => exact S.unmade x unmade
  · simp only [turned, any_eq_false, Bool.not_eq_true]
    intro e _
    cases record : e.recorded with
    | none => rfl
    | some x => exact (watched x).calm

lemma Sound.monitor (S : m.Sound) (turn : (m.quotas x).monitorTurn i e = some q)
    (timely : e = .timer → ∀ g ∈ (m.quotas x).monitors[i]?, g.told (m.quotas x).closed = false) :
    ({ m with quotas := Function.update m.quotas x q } : Rationed cfg).Sound := by
  refine ⟨fun y => ?_, fun y absent => ?_, S.alive⟩
  · by_cases same : y = x
    · subst same
      simpa using (S.watched y).monitorTurn turn timely
    · simpa [Function.update_of_ne same] using S.watched y
  · by_cases same : y = x
    · subst same
      rw [S.unmade y absent] at turn
      cases e <;> cases turn
    · simpa [Function.update_of_ne same] using S.unmade y absent

lemma records_of_kill {y : SessionPtr} (h : Broker.Step s (.kill x force) t) :
    (s.news t).filterMap (record y) = [] := by
  cases h with
  | killCrash | killRefused => simp [news]
  | killRunning | killSignal => simp [news_turned, record]

lemma Sound.kill (S : m.Sound) (h : Broker.Step m.broker (.kill x true) t) :
    ({ m with broker := t } : Rationed cfg).Sound := by
  refine ⟨fun y => ?_, fun y absent => ?_, S.alive⟩
  · by_cases known : y ∈ m.broker.created
    · exact (S.watched y).followed h known (records_of_kill h) rfl
    · rw [S.unmade y known]
      exact .fresh _
  · exact S.unmade y fun known => absent (created_of_step h known)

lemma Sound.step (S : m.Sound) (h : Step m act n) (fresh : m.broker.Fresh)
    (orderly : m.Orderly act) : n.Sound := by
  cases h with
  | broker taken => exact S.broker taken fresh orderly
  | refused turn killed =>
    exact (S.monitor turn (by simp)).kill (Broker.step_cases killed).2
  | monitor other turn =>
    refine S.monitor turn ?_
    rintro rfl
    exact orderly

lemma sound_of_reachable (h : Reachable step Orderly init m) : m.Sound :=
  Reachable.invariant_of (K := fun m : Rationed cfg => m.broker.Fresh)
    (fun _ before => fresh_of_reachable (broker_reachable before))
    ⟨fun _ => .fresh _, fun _ _ => rfl, rfl⟩
    (fun _ _ _ fresh S meets taken => S.step (step_cases taken).2 fresh meets) h

/-- In every orderly run each grant is held, named by one later grant or returned once; no channel is
closed twice, and a session that has ended holds no grant. -/
theorem grants_conserved {m : Rationed cfg} (h : Reachable step Orderly init m) :
    m.crashed = false ∧ ∀ x, (∀ grant < (m.quotas x).grants, (m.quotas x).balance grant = 1) ∧
      (m.quotas x).closed.Nodup ∧
      ((m.broker.sessions x).status.ended = true → (m.quotas x).quotaGrant = none) := by
  have S := sound_of_reachable h
  refine ⟨S.alive, fun x => ⟨fun grant issued => ?_, (S.watched x).nodup, (S.watched x).ended⟩⟩
  rw [(S.watched x).ledger, if_pos issued]

def renews : List RationedAction := [.monitor 1 0 .ask, .monitor 1 0 .grant, .monitor 1 0 .select]

def turns (acts : List Action) : List RationedAction := acts.map .broker

def runs : List Action := joins 1 ++ submits 1 1 ++ accepts 1 1 ++ starts (pool 1) 1 1

theorem grants_conserved_finished : ∃ m : Rationed (pool 1), Reachable step Orderly init m ∧
    (m.quotas 1).grants = 3 ∧ (m.quotas 1).calls = [.returned 2, .granted 2 (some 1),
      .granted 1 (some 0), .granted 0 none] ∧ (m.quotas 1).quotaGrant = none ∧
    ∀ grant < 3, (m.quotas 1).balance grant = 1 := by
  obtain ⟨m, reached, ended, grants, calls⟩ := exists_of_run step Orderly
    (init : Rationed (pool 1)) (turns runs ++ renews ++ [.monitor 1 0 .timer] ++ renews ++
      turns (finishes (pool 1) 1 1) ++ [.monitor 1 0 .done])
    (fun m => (m.broker.sessions 1).status.ended = true ∧ (m.quotas 1).grants = 3 ∧
      (m.quotas 1).calls = [.returned 2, .granted 2 (some 1), .granted 1 (some 0),
        .granted 0 none]) (by decide)
  obtain ⟨-, conserved⟩ := grants_conserved reached
  obtain ⟨balance, -, none⟩ := conserved 1
  exact ⟨m, reached, grants, calls, none ended, fun grant issued => balance grant (grants ▸ issued)⟩

/-- A lost session that is scheduled again drops its grant; a session that is cancelled after a
checkpoint closes its channel again; a grant that arrives after the end is kept. -/
theorem grants_lost :
    (∃ m : Rationed (pool 1), Reachable step Any init m ∧ 0 < (m.quotas 1).grants ∧
      (m.quotas 1).balance 0 = 0) ∧
    (∃ m : Rationed (pool 1), Reachable step Any init m ∧ (m.quotas 1).panicked = true ∧
      m.crashed = true) ∧ ∃ m : Rationed (pool 1), Reachable step Any init m ∧
      (m.broker.sessions 1).status = .terminated ∧ (m.quotas 1).quotaGrant ≠ none := by
  refine ⟨?_, ?_, ?_⟩
  · exact exists_of_run step Any (init : Rationed (pool 1))
      (turns (runs ++ [.agent 1 .done, .schedule 1 (.caller 2), .loop 1 0 .staleConnectionRequest,
        .loop 1 0 .staleTimer, .loop 1 0 .expire, .loop 1 0 (.quota true)]))
      (fun m => 0 < (m.quotas 1).grants ∧ (m.quotas 1).balance 0 = 0) (by decide)
  · exact exists_of_run step Any (init : Rationed (pool 1))
      (turns (runs ++ [.recv 1 { sessionCompletion := some ⟨(pool 1).key 1, true, false⟩ },
        .agent 1 (.update true), .schedule 1 (.caller 2), .loop 1 0 (.quota true),
        .kill 1 false, .loop 1 0 .cancelSignal, .scheduler "pool" .addSession 1,
        .scheduler "pool" .removeSession 1, .loop 1 0 .cancelConfirm]))
      (fun m => (m.quotas 1).panicked = true ∧ m.crashed = true) (by decide)
  · exact exists_of_run step Any (init : Rationed (pool 1))
      (turns runs ++ [.monitor 1 0 .ask] ++ turns (finishes (pool 1) 1 1) ++
        [.monitor 1 0 .grant])
      (fun m => (m.broker.sessions 1).status = .terminated ∧ (m.quotas 1).quotaGrant ≠ none)
      (by decide)

end Rationed

end Velda.Broker
