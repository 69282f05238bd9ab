import Velda.Broker.References

/-! Kills that were acknowledged. `Kill` leaves a request with the agent of a running
session, and a signal for the loop of one that waits. The signal is only worth
something as long as a loop will read it. -/
namespace Velda.Broker
open Lib List AgentOutput State Agent

variable {cfg : Config}

variable {s t : State cfg} {x : SessionPtr} {y : Session} {act : Action} {l : Loop}

lemma events_of_step (h : Step s act t) : ∃ evs, t.events = evs ++ s.events ∧
      (∀ x status, .killed x status ∈ evs → ∃ force, act = .kill x force) ∧
      ∀ a x, .sendSession a x ∈ evs → ∃ granted ctx rest, act = .sender a granted true ∧
        s.net.resChan a = .session x ctx :: rest := by
  obtain ⟨evs, events, source⟩ := logged_of_step h
  refine ⟨evs, events, fun x status mem => ?_, fun a x mem => ?_⟩
  · cases source _ mem with
    | killed _ own => exact ⟨_, own⟩
    | turn turn logged =>
      obtain ⟨o, made, logged⟩ := mem_flatMap.mp logged
      cases turn.made o made <;> simp [AgentOutput.events] at logged
  · cases source _ mem with
    | turn turn logged =>
      obtain ⟨o, made, logged⟩ := mem_flatMap.mp logged
      cases turn.made o made with
      | sent granted queue =>
        obtain ⟨rfl, rfl⟩ : a = _ ∧ x = _ := by simpa [AgentOutput.events] using logged
        exact ⟨granted, _, _, rfl, queue⟩
      | _ => simp [AgentOutput.events] at logged

def Event.kills (x : SessionPtr) : Event → Bool
  | .killed y _ => y = x
  | _ => false

def Event.asksToKill (a : AgentPtr) (k : SessionKey) : Event → Bool
  | .requestKill b r => b = a ∧ r.key = k
  | _ => false

namespace State

def Killed (s : State cfg) (x : SessionPtr) : Prop := ∃ e ∈ s.events, e.kills x = true

def Signalled (s : State cfg) (x : SessionPtr) : Prop :=
  ∃ status, status ≠ .running ∧ .killed x status ∈ s.events

def Asked (s : State cfg) (x : SessionPtr) (a : AgentPtr) : Prop :=
  ∃ e ∈ s.events, e.asksToKill a (cfg.key x) = true

instance (s : State cfg) (x : SessionPtr) : Decidable (s.Killed x) :=
  inferInstanceAs (Decidable (∃ e ∈ s.events, _))

instance (s : State cfg) (x : SessionPtr) (a : AgentPtr) : Decidable (s.Asked x a) :=
  inferInstanceAs (Decidable (∃ e ∈ s.events, _))

lemma killed_iff : s.Killed x ↔ ∃ status, .killed x status ∈ s.events := by
  constructor
  · rintro ⟨e, mem, kills⟩
    cases e with
    | killed y status =>
      obtain rfl : y = x := by simpa [Event.kills] using kills
      exact ⟨status, mem⟩
    | _ => cases kills
  · rintro ⟨status, mem⟩
    exact ⟨_, mem, by simp [Event.kills]⟩

lemma asked_iff : s.Asked x a ↔ ∃ force, .requestKill a ⟨cfg.key x, force⟩ ∈ s.events := by
  constructor
  · rintro ⟨e, mem, asks⟩
    cases e with
    | requestKill b r =>
      obtain ⟨rfl, key⟩ : b = a ∧ r.key = cfg.key x := by simpa [Event.asksToKill] using asks
      exact ⟨r.force, by rw [← key]; exact mem⟩
    | _ => cases asks
  · rintro ⟨force, mem⟩
    exact ⟨_, mem, by simp [Event.asksToKill]⟩

end State

/-- A loop that will read the signal, or has read it. -/
def Session.Heard (y : Session) (l : Loop) : Prop :=
  l.generation ∈ y.cancelSignal ∨ l.state = .awaitingKill ∨ l.state = .cancelling ∨
    (y.schedulingErr = some .killed ∧ (l.state = .staleCancelled ∨ l.state = .staleTimerExpired))

def SchedulingState.isStale : SchedulingState → Bool
  | .stale | .staleCancelled | .staleTimerExpired => true
  | _ => false

/-- What a kill leaves of a session. A session that was killed while it ran may be stale and
have heard of no kill. -/
structure Session.Obeys (killed signalled : Prop) (asked : AgentPtr → Prop) (y : Session) :
    Prop where
  known : killed → y.status ≠ .unspecified ∧ y.status ≠ .waitingForOtherShards
  running : killed → y.status = .running → ∃ a, y.agent = some a ∧ asked a
  loops : killed → ∀ l ∈ y.loops, y.Heard l ∨ ¬ signalled ∧ l.state.isStale = true
  signalled : signalled → y.status ≠ .running

/-- A waiting gang member is not killed, a signal is read before an agent is taken and before an
answer is read, and a killed session is not scheduled again without a signal. -/
def Prompt (x : SessionPtr) (s : State cfg) : Action → Prop
  | .kill y _ => y = x → (s.sessions x).status ≠ .waitingForOtherShards
  | .loop y i .agent => y = x → ∀ l ∈ (s.sessions x).loops[i]?, l.state = .queueing →
      l.generation ∉ (s.sessions x).cancelSignal
  | .loop y i .response => y = x → ∀ l ∈ (s.sessions x).loops[i]?, l.state = .sentToAgent →
      l.generation ∉ (s.sessions x).cancelSignal
  | .loop y i .expire => y = x → ∀ l ∈ (s.sessions x).loops[i]?, l.ctx.isSome = true →
      l.generation ∉ (s.sessions x).cancelSignal → ¬ s.Killed x
  | .schedule y _ => y = x → (s.sessions x).status = .checkpointed →
      (s.sessions x).loops = [] ∧ ¬ s.Killed x
  | _ => True

instance (x : SessionPtr) (s : State cfg) (act : Action) : Decidable (Prompt x s act) := by
  induction act using Action.casesOn with
  | loop y i e => induction e using LoopEvent.casesOn <;> unfold Prompt <;> infer_instance
  | _ => unfold Prompt; infer_instance

def Heeded (x : SessionPtr) (s : State cfg) (act : Action) : Prop :=
  Prompt x s act ∧ ∀ force, act = .kill x force → s.Unsought x

lemma Prompt.resumed (h : Prompt x s act) : Resumed x s act := by
  cases act with
  | schedule y ctx => exact fun same checkpointed => (h same checkpointed).1
  | _ => trivial

namespace Session

variable {killed signalled : Prop} {asked : AgentPtr → Prop}

lemma Obeys.of_not_killed (alive : ¬ killed) (implied : signalled → killed) :
    y.Obeys killed signalled asked where
  known now := absurd now alive
  running now := absurd now alive
  loops now := absurd now alive
  signalled now := absurd (implied now) alive

lemma Obeys.of_terminal (status : y.status = .cancelled ∨ y.status = .terminated)
    (loops : killed → ∀ l ∈ y.loops, y.Heard l ∨ ¬ signalled ∧ l.state.isStale = true) :
    y.Obeys killed signalled asked where
  known _ := by rcases status with status | status <;> simp [status]
  running _ := by rcases status with status | status <;> simp [status]
  loops := loops
  signalled _ := by rcases status with status | status <;> simp [status]

lemma Obeys.of_loop (loops : y.loops = [l])
    (busy : ¬ (y.status = .unspecified ∨ y.status = .running ∨
      y.status = .waitingForOtherShards)) (minds : y.Heard l ∨ ¬ signalled ∧ l.state.isStale = true) :
    y.Obeys killed signalled asked where
  known _ := by
    rw [not_or, not_or] at busy
    exact ⟨busy.1, busy.2.2⟩
  running _ running := absurd (.inr (.inl running)) busy
  loops _ := by simpa [loops] using minds
  signalled _ running := busy (.inr (.inl running))

lemma Obeys.output (S : y.Sound) (O : y.Obeys killed signalled asked)
    (implied : signalled → killed) (done : Ctx → Bool) (x : SessionPtr) (o : AgentOutput) :
    (o.onSession cfg done x y).Obeys killed signalled asked := by
  by_cases now : killed
  · cases o with
    | complete z final =>
      simp only [onSession]
      split
      · exact .of_terminal (y.status_finish final) O.loops
      · exact O
    | checkpointed z =>
      simp only [onSession]
      split
      · exact ⟨fun _ => by simp, fun _ other => by simp at other, O.loops, fun _ => by simp⟩
      · exact O
    | markStale l time =>
      simp only [onSession]
      split
      · unfold markStale
        split
        · next running =>
          split
          · have none := S.idle (.inr (.inl running))
            refine .of_loop (by simp [none]; rfl) (by simp [start]) (.inr ⟨?_, rfl⟩)
            exact fun signal => O.signalled signal running
          · exact O
        · next waiting => exact absurd waiting (O.known now).2
        · exact O
      · exact O
    | _ => exact O
  · exact .of_not_killed now implied

lemma Heard.of_pending (h : l.generation ∈ y.cancelSignal) : y.Heard l :=
  .inl h

lemma Heard.pending {signalled : Prop} (h : y.Heard l ∨ ¬ signalled ∧ l.state.isStale = true)
    (early : l.state = .created ∨ l.state = .queueing ∨ l.state = .sentToAgent) :
    l.generation ∈ y.cancelSignal := by
  rcases early with state | state | state <;> simpa [Heard, state, SchedulingState.isStale] using h

lemma Obeys.refresh (done : Ctx → Bool) (loops : y.loops = [l])
    (busy : ¬ (y.status = .unspecified ∨ y.status = .running ∨ y.status = .waitingForOtherShards))
    (minds : y.Heard m ∨ ¬ signalled ∧ m.state.isStale = true) :
    (y.refresh done 0 m).Obeys killed signalled asked := by
  unfold Session.refresh
  split
  · exact .of_loop (l := { m with ctx := y.scheduleCtx.head? }) (by simp [loops]) busy minds
  · exact .of_loop (by simp [loops]) busy minds

lemma Obeys.looped (S : (s.sessions x).Sound) (O : (s.sessions x).Obeys killed signalled asked)
    (now : killed) (isKilled : s.Killed x) (found : (s.sessions x).loops[i]? = some l)
    (h : LoopStep s x i l e t) (prompt : Prompt x s (.loop x i e)) :
    (t.sessions x).Obeys killed signalled asked := by
  obtain ⟨rfl, loops⟩ := S.loops_eq found
  have minds := O.loops now l (by simp [loops])
  have busy := S.busy loops
  cases h with
  | noCtx | notReconnected => exact O
  | hold state | assign state =>
    exact absurd (Heard.pending minds (.inr (.inl state))) (prompt rfl l found state)
  | started state =>
    exact absurd (Heard.pending minds (.inr (.inr state))) (prompt rfl l found state)
  | enqueue state =>
    refine .of_loop (by simp [turned, setLoop, loops]; rfl)
      (by simpa [turned, setLoop] using busy) (.inl (.of_pending ?_))
    simpa [turned, setLoop] using Heard.pending minds (.inl state)
  | nextCtx state =>
    refine .of_loop (by simp [turned, loops]; rfl)
      (by simpa [turned, setLoop] using busy) (.inl (.of_pending ?_))
    simpa [turned, setLoop] using Heard.pending minds (.inr (.inl state))
  | cancelCtx | cancelSignal | killSent | killStarted | killDone =>
    refine .of_loop (by simp [turned, takeSignal, loops]; rfl)
      (by simpa [turned, setLoop, takeSignal] using busy) (.inl ?_)
    simp [Heard]
  | staleSignal =>
    have refreshed : ({ (s.sessions x).takeSignal l.generation with
        schedulingErr := some .killed }.refresh s.ctxDone 0
          { l with state := .staleCancelled }).Obeys killed signalled asked :=
      .refresh s.ctxDone loops busy (.inl (.inr (.inr (.inr ⟨rfl, .inl rfl⟩))))
    simpa [turned] using refreshed
  | staleRefresh =>
    simpa [turned] using Obeys.refresh s.ctxDone loops busy minds
  | staleTimer state =>
    refine .of_loop (by simp [turned, setLoop, loops]; rfl)
      (by simpa [turned, setLoop] using busy) ?_
    rcases minds with (pending | waits | cancels | ⟨err, -⟩) | ⟨unsignalled, -⟩
    · exact .inl (.of_pending (by simpa [turned, setLoop] using pending))
    · rcases state with state | state <;> rw [state] at waits <;> cases waits
    · rcases state with state | state <;> rw [state] at cancels <;> cases cancels
    · exact .inl (.inr (.inr (.inr ⟨by simpa [turned, setLoop] using err, .inr rfl⟩)))
    · exact .inr ⟨unsignalled, rfl⟩
  | reconnected _ mem | reconnectKill _ mem | reconnectedLate _ _ mem =>
    rw [S.reconnect] at mem
    cases mem
  | reschedule state _ ctx =>
    have pending : l.generation ∈ (s.sessions x).cancelSignal := by
      by_contra none
      exact prompt rfl l found (by rw [ctx]; rfl) none isKilled
    refine .of_loop (by simp [turned, loops]; rfl) (by simp [turned, setLoop])
      (.inl (.of_pending ?_))
    simpa [turned, setLoop] using pending
  | _ =>
    exact .of_terminal (by simp [turned, finishLoop, finish, endLoop])
      (by simp [turned, finishLoop, finish, endLoop, loops])

end Session

def State.Obeyed (s : State cfg) (x : SessionPtr) : Prop :=
  (s.sessions x).Obeys (s.Killed x) (s.Signalled x) (s.Asked x)

lemma State.Signalled.killed (h : s.Signalled x) : s.Killed x := by
  obtain ⟨status, -, mem⟩ := h
  exact killed_iff.mpr ⟨status, mem⟩

lemma obeyed_of_kill (S : (s.sessions x).Sound) (O : s.Obeyed x)
    (prompt : Prompt x s (.kill x force)) (h : Step s (.kill x force) t) : t.Obeyed x := by
  cases h with
  | killCrash | killRefused => exact O
  | @killRunning _ a _ _ running held =>
    have atAgent : (s.sessions x).agent = some a := (Option.filter_eq_some_iff.mp held).1
    have loops := S.idle (.inr (.inl running))
    refine ⟨fun _ => ?_, fun _ _ => ⟨a, ?_, ?_⟩, fun _ => ?_, fun signal => ?_⟩
    · simp [turned, running]
    · simpa [turned] using atAgent
    · exact asked_iff.mpr ⟨force, by simp [turned]⟩
    · simp [turned, loops]
    · obtain ⟨status, other, mem⟩ := signal
      have old : .killed x status ∈ s.events := by
        simpa [turned, other] using mem
      exact absurd running (O.signalled ⟨status, other, old⟩)
  | killSignal _ _ waits =>
    have waits : (s.sessions x).status = .queueing ∨ (s.sessions x).status = .stale := by
      rcases waits with queueing | waiting | stale
      · exact .inl queueing
      · exact absurd waiting (prompt rfl)
      · exact .inr stale
    obtain ⟨l, rest, loops⟩ := exists_cons_of_ne_nil (S.live waits)
    obtain ⟨-, loops⟩ := S.loops_eq (i := 0) (by rw [loops]; rfl)
    obtain ⟨newest, made⟩ := S.newest l (by simp [loops])
    refine .of_loop (l := l) ?_ ?_ (.inl (.of_pending ?_)) <;>
      simp only [turned, Function.update_self, Session.signal]
    · split <;> exact loops
    · split <;> exact S.busy loops
    · rw [newest]
      split
      · next noRoom => exact noRoom.resolve_left (by omega)
      · exact mem_cons_self

lemma State.Obeyed.step (S : (s.sessions x).Sound) (known : s.Killed x → x ∈ s.created)
    (O : s.Obeyed x) (prompt : Prompt x s act) (h : Step s act t) : t.Obeyed x := by
  by_cases kills : ∃ force, act = .kill x force
  · obtain ⟨force, rfl⟩ := kills
    exact obeyed_of_kill S O prompt h
  · obtain ⟨evs, events, killed, -⟩ := events_of_step h
    have same : ∀ status, .killed x status ∈ t.events → .killed x status ∈ s.events := by
      intro status mem
      rw [events] at mem
      exact (mem_append.mp mem).resolve_left fun new => kills (killed x status new)
    have isKilled : t.Killed x → s.Killed x := by
      rw [killed_iff, killed_iff]
      rintro ⟨status, mem⟩
      exact ⟨status, same status mem⟩
    have kept : (s.sessions x).Obeys (t.Killed x) (t.Signalled x) (t.Asked x) := by
      refine ⟨fun now => O.known (isKilled now), fun now running => ?_, fun now l mem => ?_, ?_⟩
      · obtain ⟨a, atAgent, e, mem, asks⟩ := O.running (isKilled now) running
        exact ⟨a, atAgent, e, by rw [events]; exact mem_append_right _ mem, asks⟩
      · refine (O.loops (isKilled now) l mem).imp_right fun stale => ⟨fun signal => ?_, stale.2⟩
        exact stale.1 (signal.imp fun status m => ⟨m.1, same status m.2⟩)
      · exact fun signal => O.signalled (signal.imp fun status m => ⟨m.1, same status m.2⟩)
    have new : s.Unused x → ∀ y : Session, y.Obeys (t.Killed x) (t.Signalled x) (t.Asked x) :=
      fun unused y => .of_not_killed (fun now => unused.1 (known (isKilled now))) (·.killed)
    refine (session_of_step h x (I := fun y => y.Sound ∧
      y.Obeys (t.Killed x) (t.Signalled x) (t.Asked x)) ⟨S, kept⟩
      (fun o y inv => ⟨inv.1.output _ x o, inv.2.output inv.1 (·.killed) _ x o⟩)
      (fun _ unused => ⟨.fresh, new unused _⟩) (fun a _ unused => ⟨.reported s a, new unused _⟩)
      (fun ctx own => ?_) (fun force own => absurd ⟨force, own⟩ kills)
      fun i l e own found taken => ⟨S.looped found taken, ?_⟩).2
    · subst own
      refine ⟨S.schedule prompt.resumed, ?_⟩
      by_cases now : t.Killed x
      · refine Session.schedule_rule kept
          (fun _ _ => ⟨kept.known, kept.running, kept.loops, kept.signalled⟩) fun started => ?_
        rcases started with checkpointed | unspecified
        · exact absurd (isKilled now) (prompt rfl checkpointed).2
        · exact absurd unspecified (kept.known now).1
      · exact .of_not_killed now (·.killed)
    · subst own
      by_cases now : t.Killed x
      · exact kept.looped S now (isKilled now) found taken prompt
      · exact .of_not_killed now (·.killed)

lemma created_of_killed {ok : State cfg → Action → Prop} (h : Reachable step ok .init s) :
    s.Killed x → x ∈ s.created := by
  refine Reachable.invariant (I := fun s : State cfg => s.Killed x → x ∈ s.created) ?_
    (fun s act t known _ taken now => ?_) h
  · rintro ⟨e, mem, -⟩
    cases mem
  · have step := (step_cases taken).2
    obtain ⟨evs, events, killed, -⟩ := events_of_step step
    obtain ⟨status, mem⟩ := killed_iff.mp now
    rw [events] at mem
    rcases mem_append.mp mem with new | old
    · obtain ⟨force, rfl⟩ := killed x status new
      cases step <;> assumption
    · exact created_of_step step (known (killed_iff.mpr ⟨status, old⟩))

lemma unsought_of_step (U : s.Killed x → s.Unsought x) (O : s.Obeyed x) (heeded : Heeded x s act)
    (h : Step s act t) (killed : t.Killed x) : t.Unsought x := by
  obtain ⟨evs, events, kills, -⟩ := events_of_step h
  obtain ⟨status, mem⟩ := killed_iff.mp killed
  rw [events] at mem
  rcases mem_append.mp mem with new | old
  · obtain ⟨force, rfl⟩ := kills x status new
    exact (heeded.2 force rfl).step_of_untaken (by rintro ⟨_, _, other, _⟩; cases other) h
  · have isKilled : s.Killed x := killed_iff.mpr ⟨status, old⟩
    refine (U isKilled).step_of_untaken ?_ h
    rintro ⟨i, l, rfl, found, state, -⟩
    have minds := O.loops isKilled l (mem_of_getElem? found)
    exact heeded.1 rfl l found state (Session.Heard.pending minds (.inr (.inl state)))

def State.Withheld (s : State cfg) (x : SessionPtr) : Prop :=
  ∀ newer older status a, s.events = newer ++ .killed x status :: older → .sendSession a x ∉ newer

lemma State.Withheld.step (W : s.Withheld x) (U : s.Killed x → s.Unsought x) (h : Step s act t) :
    t.Withheld x := by
  obtain ⟨evs, events, kills, sends⟩ := events_of_step h
  have unsent : s.Killed x → ∀ a, .sendSession a x ∉ evs := by
    intro killed a sent
    obtain ⟨granted, ctx, rest, -, queue⟩ := sends a x sent
    exact (U killed).sent a (.session x ctx) (by simp [queue]) rfl
  intro newer older status a split sent
  rw [events, append_eq_append_iff] at split
  rcases split with ⟨rest, rfl, inner⟩ | ⟨rest, rfl, inner⟩
  · have killed : s.Killed x := killed_iff.mpr ⟨status, by rw [inner]; simp⟩
    rcases mem_append.mp sent with new | old
    · exact unsent killed a new
    · exact W rest older status a inner old
  · cases rest with
    | nil =>
      have killed : s.Killed x :=
        killed_iff.mpr ⟨status, by rw [nil_append] at inner; rw [← inner]; simp⟩
      exact unsent killed a (mem_append_left _ sent)
    | cons e rest =>
      obtain ⟨rfl, -⟩ := List.cons.inj inner
      obtain ⟨force, rfl⟩ := kills x status (by simp)
      obtain ⟨granted, ctx, rest, other, -⟩ := sends a x (mem_append_left _ sent)
      cases other

def Unassigned (x : SessionPtr) : Action → Prop
  | .loop y _ .agent => y ≠ x
  | _ => True

instance (x : SessionPtr) (act : Action) : Decidable (Unassigned x act) := by
  induction act using Action.casesOn with
  | loop y i e => induction e using LoopEvent.casesOn <;> unfold Unassigned <;> infer_instance
  | _ => unfold Unassigned; infer_instance

lemma unsought_of_unassigned {ok : State cfg → Action → Prop}
    (unassigned : ∀ s act, ok s act → Unassigned x act) (h : Reachable step ok .init s) :
    s.Unsought x := by
  refine Reachable.invariant (I := fun s : State cfg => s.Unsought x)
    (@fresh_of_reachable _ ok _ .start x not_mem_nil).toUnsought
    (fun s act t U meets taken => U.step_of_untaken ?_ (step_cases taken).2) h
  rintro ⟨i, l, rfl, -⟩
  exact unassigned _ _ meets rfl

end Velda.Broker
