import Velda.Broker.References
import Velda.Broker.Told

/-! Sessions that an agent brings back. `AgentUpdate` makes a new object for each
execution the agent reports and puts it in the place of the object that had the key;
the older object keeps its loop and its timer, and both act on the key. -/
namespace Velda.Broker
open Lib List Function AgentOutput State Agent

variable {cfg : Config}

def AgentOutput.ends (x : SessionPtr) : AgentOutput → Bool
  | .complete y final => y = x ∧ (final = .complete ∨ final = .startupFailure)
  | .checkpointed y => y = x
  | _ => false

variable {s t : State cfg} {x y : SessionPtr} {a : AgentPtr} {act : Action}
  {r : Agent cfg × List AgentOutput}

namespace Agent

lemma keeps_update {g : Agent cfg} (alive : (g.handleSessionUpdate a m revoked).1.stopping = false)
    (lives : ∀ o ∈ (g.handleSessionUpdate a m revoked).2, o.ends x = false)
    (held : x ∈ g.mySessions) : (∀ o ∈ (g.handleSessionUpdate a m revoked).2, o.Spares cfg x) ∧
      x ∈ (g.handleSessionUpdate a m revoked).1.mySessions := by
  obtain ⟨h, first, out, inited, completed, same⟩ := g.updated a m revoked
  obtain ⟨init, completion⟩ := m
  rw [same] at alive lives ⊢
  simp only [mem_append, or_imp, forall_and] at lives ⊢
  obtain ⟨front, back⟩ := lives
  have kept : (∀ o ∈ first, o.Spares cfg x) ∧ x ∈ h.mySessions := by
    cases inited with
    | none | unknown => exact ⟨by simp, held⟩
    | started => exact ⟨by simp [AgentOutput.Spares, onSession], held⟩
    | @failed k z found =>
      have other : z ≠ x := by
        rintro rfl
        simp [ends] at front
      exact ⟨by simp [AgentOutput.Spares, onSession, other],
        (mem_rejoin found).mpr ⟨held, other.symm⟩⟩
  have still : (∀ o ∈ out.2, o.Spares cfg x) ∧ x ∈ out.1.mySessions := by
    cases completed with
    | none | unknown => exact ⟨by simp, kept.2⟩
    | unrevoked => simp at alive
    | @checkpointed c z found =>
      have other : z ≠ x := by
        rintro rfl
        simp [ends] at back
      exact ⟨by simp [AgentOutput.Spares, onSession, other],
        (mem_rejoin found).mpr ⟨kept.2, other.symm⟩⟩
    | @completed c z found =>
      have other : z ≠ x := by
        rintro rfl
        have ended := back (.complete z .complete) (by simp)
        simp [ends] at ended
      refine ⟨?_, (mem_rejoin found).mpr ⟨kept.2, other.symm⟩⟩
      cases c.hasResult <;> simp [AgentOutput.Spares, onSession, other]
  exact ⟨⟨kept.1, still.1⟩, still.2⟩

lemma keeps_handle {g : Agent cfg} (alive : (g.handle a input).1.stopping = false)
    (lives : ∀ o ∈ (g.handle a input).2, o.ends x = false) (held : x ∈ g.mySessions)
    (sole : ∀ r, input = .sessionReq r → r.accept = true → cfg.key r.session ≠ cfg.key x) :
    (∀ o ∈ (g.handle a input).2, o.Spares cfg x) ∧ x ∈ (g.handle a input).1.mySessions := by
  have handled := g.handled a input
  generalize g.handle a input = out at handled alive lives ⊢
  cases handled with
  | stop => simp at alive
  | update m revoked => exact keeps_update alive lives held
  | @refused r => exact ⟨by cases r.accept <;> simp [AgentOutput.Spares, onSession], held⟩
  | @accepted r _ accept =>
    refine ⟨?_, Keyed.mem_insert.mpr (.inr ⟨held, fun same => sole r rfl accept same.symm⟩)⟩
    unfold acceptOutputs
    cases (g.accept a r.session).receiving <;>
    cases (g.mySessions.lookup (cfg.key r.session)).isSome <;> cases r.holdResourceOnly <;>
    simp [AgentOutput.Spares, onSession]
  | _ => exact ⟨by simp [AgentOutput.Spares, onSession], held⟩

end Agent

lemma Turn.keeps (h : Turn s act a r) (alive : r.1.stopping = false)
    (lives : ∀ o ∈ r.2, o.ends x = false) (held : x ∈ (s.agents a).mySessions)
    (asked : ∀ q ∈ s.net.sessionReq a, q.accept = true → cfg.key q.session ≠ cfg.key x)
    (sending : ∀ f ∈ s.net.resChan a, ∀ y, f.session? = some y → cfg.key y ≠ cfg.key x) :
    (∀ o ∈ r.2, o.Spares cfg x) ∧ x ∈ r.1.mySessions := by
  cases h with
  | @start _ idle =>
    exact ⟨by cases idle <;> simp [AgentOutput.Spares, onSession], held⟩
  | @agent _ e n input taken =>
    have sole : ∀ r, input = .sessionReq r → r.accept = true →
        cfg.key r.session ≠ cfg.key x := by
      rintro r rfl
      cases Net.received taken with
      | sessionReq queue => exact asked r (by rw [queue]; exact mem_cons_self)
    rw [stopping_settle] at alive
    have kept := keeps_handle alive
      (fun o mem => lives o (by unfold settle; split <;> simp [mem])) held sole
    refine ⟨fun o mem => ?_, by rw [mySessions_settle]; exact kept.2⟩
    unfold settle at mem
    split at mem
    · rcases mem_append.mp mem with old | lost
      · exact kept.1 o old
      · rw [mem_singleton.mp lost]
        exact fun _ _ => rfl
    · exact kept.1 o mem
  | @sender _ f rest granted sent queue =>
    cases f with
    | session z ctx =>
      have other := sending (.session z ctx) (by simp [queue]) z rfl
      cases sent with
      | true =>
        exact ⟨by cases granted <;>
          simp [runSend, AgentOutput.Spares, onSession], held⟩
      | false =>
        refine ⟨?_, Keyed.mem_erase.mpr ⟨held, other.symm⟩⟩
        cases granted <;> simp [runSend, AgentOutput.Spares, onSession]
    | kill k =>
      cases sent with
      | true => exact ⟨by simp [runSend, AgentOutput.Spares, onSession], held⟩
      | false => simp [runSend] at alive

namespace State

/-- The agent has said that the session completed, was checkpointed or did not start. -/
def Ended (s : State cfg) (x : SessionPtr) : Prop :=
  ∃ final ∈ [FinalState.complete, .checkpointed, .startupFailure],
    .recordExecution x final ∈ s.events

instance (s : State cfg) (x : SessionPtr) : Decidable (s.Ended x) :=
  inferInstanceAs (Decidable (∃ final ∈ [FinalState.complete, .checkpointed, .startupFailure],
    .recordExecution x final ∈ s.events))

structure Spent (s : State cfg) (y : SessionPtr) : Prop extends s.Idle y where
  terminal : (s.sessions y).status.terminal = true

def since (s : State cfg) (a : AgentPtr) (x : SessionPtr) : List Event :=
  s.events.takeWhile (· ≠ .reGrantAccess a x)

end State

lemma ExecutionStatus.settled_of_terminal {e : ExecutionStatus} (h : e.terminal = true) :
    e = .terminated ∨ e = .cancelled := by
  cases e <;> simp_all [terminal]

lemma State.Spent.step (S : s.Spent y) (known : y ∈ s.created) (h : Step s act t) :
    t.Spent y := by
  have past := ExecutionStatus.settled_of_terminal S.terminal
  have unregistered : ∀ b, act ≠ .register b y := by
    rintro b rfl
    cases h with
    | register _ unused => exact unused.1 known
  have unadded : act ≠ .addSession y := by
    rintro rfl
    cases h with
    | addSession unused => exact unused.1 known
  have same : t.sessions y = s.sessions y := by
    refine session_of_spared h S.loops (fun a r turn => S.toIdle.spared turn)
      ⟨unadded, unregistered⟩ (fun _ ctx => ?_) fun _ => ?_
    · unfold Session.schedule
      rcases past with past | past <;> rw [past]
    · rcases past with past | past <;> simp [past]
  exact ⟨S.toIdle.step h unregistered same, same ▸ S.terminal⟩

/-- An agent reports an execution only once the older sessions of the key are spent. -/
def Succeeds (x : SessionPtr) (s : State cfg) : Action → Prop
  | .register _ z => cfg.key z = cfg.key x → ∀ y ∈ s.created, cfg.key y = cfg.key x → s.Spent y
  | _ => True

def First (x : SessionPtr) (s : State cfg) : Action → Prop
  | .register _ z => cfg.key z = cfg.key x → ∀ y ∈ s.created, cfg.key y ≠ cfg.key x
  | _ => True

instance (x : SessionPtr) (s : State cfg) (act : Action) : Decidable (First x s act) := by
  induction act using Action.casesOn <;> unfold First <;> infer_instance

lemma succeeds_of_first (h : First x s act) : Succeeds x s act := by
  cases act with
  | register b z => exact fun own y known same => absurd same (h own y known)
  | _ => trivial

/-- Session `x` runs on agent `a` and is the only session of its key that is not spent. -/
structure Kept (a : AgentPtr) (x : SessionPtr) (s : State cfg) : Prop extends s.Unsought x where
  known : x ∈ s.created
  running : (s.sessions x).status = .running
  loops : (s.sessions x).loops = []
  held : x ∈ (s.agents a).mySessions
  alone : ∀ b ≠ a, x ∉ (s.agents b).mySessions
  entry : s.db.sessions (cfg.key x) = some x
  spent : ∀ y ∈ s.created, y ≠ x → cfg.key y = cfg.key x → s.Spent y

lemma Kept.idle (K : Kept a x s) (fresh : s.Fresh) (other : y ≠ x) (same : cfg.key y = cfg.key x) :
    s.Idle y := by
  by_cases known : y ∈ s.created
  · exact (K.spent y known other same).toIdle
  · exact fresh y known

lemma Kept.spared (K : Kept a x s) (fresh : s.Fresh) (turn : Turn s act b r)
    (alive : b = a → r.1.stopping = false) (lives : ∀ o ∈ r.2, o.ends x = false) :
    (∀ o ∈ r.2, o.Spares cfg x) ∧ (b = a → x ∈ r.1.mySessions) := by
  by_cases own : b = a
  · subst own
    have kept := turn.keeps (alive rfl) lives K.held
      (fun q mem accept same => by
        by_cases self : q.session = x
        · exact K.requested b q mem accept self
        · exact (K.idle fresh self same).requested b q mem accept rfl)
      (fun f mem y names same => by
        by_cases self : y = x
        · exact K.sent b f mem (self ▸ names)
        · exact (K.idle fresh self same).sent b f mem names)
    exact ⟨kept.1, fun _ => kept.2⟩
  · exact ⟨fun o mem => onSession_of_untouched
      (turn.untouched (K.alone b own) (K.sent b) o mem), fun same => absurd same own⟩

lemma Turn.not_ends (turn : Turn s act b r) (h : Step s act t) (lives : ¬ t.Ended x) :
    ∀ o ∈ r.2, o.ends x = false := by
  obtain ⟨n, rfl⟩ := turn.performed h
  intro o mem
  by_contra ends
  have logged : ∀ final, .recordExecution x final ∈ o.events →
      .recordExecution x final ∈ (({ s with net := n } : State cfg).performAll b r).events := by
    intro final made
    rw [events_performAll]
    exact mem_append_left _ (mem_reverse.mpr (mem_flatMap.mpr ⟨o, mem, made⟩))
  cases o with
  | complete y final =>
    simp only [AgentOutput.ends, Bool.not_eq_false, decide_eq_true_eq] at ends
    obtain ⟨rfl, kind⟩ := ends
    exact lives ⟨final, by rcases kind with rfl | rfl <;> simp,
      logged final (by simp [AgentOutput.events])⟩
  | checkpointed y =>
    have own : y = x := by simpa [AgentOutput.ends] using ends
    exact lives ⟨.checkpointed, by simp, logged _ (by simp [AgentOutput.events, own])⟩
  | _ => simp [AgentOutput.ends] at ends

/-- The rule for what a step makes of the sessions of a connection and of its end. -/
lemma connection_of_step (h : Step s act t) (connected : a ∈ s.connected)
    {I : Bool → Keyed cfg.key → Prop}
    (before : I (s.agents a).stopping (s.agents a).mySessions)
    (registered : ∀ z, act = .register a z →
      I (s.agents a).stopping ((s.agents a).mySessions.insert z))
    (turns : ∀ r, Turn s act a r → I r.1.stopping r.1.mySessions) :
    I (t.agents a).stopping (t.agents a).mySessions := by
  have performed : ∀ {n b r}, Turn s act b r →
      I ((({ s with net := n } : State cfg).performAll b r).agents a).stopping
        ((({ s with net := n } : State cfg).performAll b r).agents a).mySessions := by
    intro n b r turn
    by_cases own : a = b
    · subst own
      simpa using turns r turn
    · simpa [update_of_ne own] using before
  cases h with
  | @connect b absent =>
    have other : a ≠ b := fun same => absent (same ▸ connected)
    simpa [modifyAgent, update_of_ne other] using before
  | @dropAgent b | @recv b =>
    by_cases own : a = b
    · subst own
      simpa [modifyAgent, modifyNet] using before
    · simpa [modifyAgent, modifyNet, update_of_ne own] using before
  | @register b z =>
    by_cases own : a = b
    · subst own
      simpa [State.registered] using registered z rfl
    · simpa [State.registered, update_of_ne own] using before
  | startAgent => exact performed (.start rfl)
  | agent _ taken => exact performed (.agent taken)
  | sender granted sent _ queue => exact performed (.sender granted sent queue)
  | loop _ taken =>
    rw [(sameOffers_loopStep taken).1]
    exact before
  | _ => exact before

lemma stopping_of_step (h : Step s act t) (connected : a ∈ s.connected)
    (stopping : (s.agents a).stopping = true) : (t.agents a).stopping = true :=
  connection_of_step h connected (I := fun stops _ => stops = true) stopping
    (fun _ _ => stopping) fun _ turn => turn.stopping stopping

lemma held_stays (h : Step s act t) (connected : a ∈ s.connected)
    (held : x ∈ (s.agents a).mySessions)
    (registered : ∀ z, act = .register a z → cfg.key z ≠ cfg.key x)
    (turns : ∀ r, Turn s act a r → x ∈ r.1.mySessions) : x ∈ (t.agents a).mySessions :=
  connection_of_step h connected (I := fun _ sessions => x ∈ sessions) held
    (fun z own => Keyed.mem_insert.mpr (.inr ⟨held, (registered z own).symm⟩)) turns

lemma made_of_step (h : Step s act t) (mem : y ∈ t.created) : y ∈ s.created ∨
      (act = .addSession y ∧ s.db.sessions (cfg.key y) = none) ∨ ∃ b, act = .register b y := by
  cases h with
  | addSession _ free =>
    rcases mem_cons.mp mem with rfl | old
    · exact .inr (.inl ⟨rfl, free⟩)
    · exact .inl old
  | @register b =>
    rcases mem_cons.mp mem with rfl | old
    · exact .inr (.inr ⟨b, rfl⟩)
    · exact .inl old
  | startAgent | agent | sender => exact .inl (by simpa [startAgent, created_performAll] using mem)
  | loop _ taken => cases taken <;> exact .inl mem
  | _ => exact .inl mem

lemma Kept.step (K : Kept a x s) (fresh : s.Fresh) (connected : a ∈ s.connected)
    (h : Step s act t) (ok : Succeeds x s act) (alive : (t.agents a).stopping = false)
    (lives : ¬ t.Ended x) : Kept a x t := by
  have turns : ∀ b r, Turn s act b r →
      (∀ o ∈ r.2, o.Spares cfg x) ∧ (b = a → x ∈ r.1.mySessions) := by
    intro b r turn
    refine K.spared fresh turn (fun own => ?_) (turn.not_ends h lives)
    obtain ⟨n, rfl⟩ := turn.performed h
    subst own
    simpa using alive
  -- no other session of the key is registered while `x` runs
  have unregistered : ∀ b z, act = .register b z → cfg.key z ≠ cfg.key x := by
    rintro b z rfl same
    have past := (ok same x K.known rfl).terminal
    rw [K.running] at past
    cases past
  have unadded : act ≠ .addSession x := by
    rintro rfl
    cases h with
    | addSession unused => exact unused.1 K.known
  have same : t.sessions x = s.sessions x := by
    refine session_of_spared h K.loops (fun b r turn => (turns b r turn).1)
      ⟨unadded, fun b own => unregistered b x own rfl⟩ (fun _ ctx => ?_) fun _ => ?_
    · unfold Session.schedule
      rw [K.running]
    · simp [K.running]
  refine
    { toUnsought := K.toUnsought.step K.loops h
      known := created_of_step h K.known
      running := same ▸ K.running
      loops := same ▸ K.loops
      held := ?_
      alone := fun b other mem => ?_
      entry := ?_
      spent := fun y known other key => ?_ }
  · exact held_stays h connected K.held (fun z own => unregistered a z own)
      fun r turn => (turns a r turn).2 rfl
  · rcases held_of_step h mem with old | reported | ⟨r, asked, accept, names⟩
    · exact K.alone b other old
    · exact unregistered b x reported rfl
    · exact K.requested b r asked accept names
  · rcases db_of_step h (cfg.key x) with kept | ⟨z, key, rekeyed⟩
    · rw [kept, K.entry]
    · exfalso
      cases rekeyed with
      | added _ free =>
        rw [key, K.entry] at free
        cases free
      | registered own => exact unregistered _ z own key
      | looped live =>
        by_cases self : z = x
        · exact live (self ▸ K.loops)
        · exact live (K.idle fresh self key).loops
      | @completed b r final turn mem =>
        by_cases self : z = x
        · subst self
          have past := (turns b r turn).1 _ mem (fun _ => false) (s.sessions z)
          simp only [AgentOutput.onSession, if_true] at past
          have status := (s.sessions z).status_finish final
          rw [past, K.running] at status
          simp at status
        · have free := turn.untouched ((K.idle fresh self key).held b)
            ((K.idle fresh self key).sent b) _ mem
          simp [AgentOutput.touches, AgentOutput.events, Event.concerns] at free
  · rcases made_of_step h known with old | ⟨-, free⟩ | ⟨b, reported⟩
    · exact (K.spent y old other key).step old h
    · rw [key, K.entry] at free
      cases free
    · exact absurd key (unregistered b y reported)

lemma Kept.registered (fresh : s.Fresh) (h : Step s (.register a x) (s.registered a x))
    (unused : s.Unused x) (ok : Succeeds x s (.register a x)) : Kept a x (s.registered a x) := by
  have idle := fresh x unused.1
  refine
    { toUnsought := idle.toUnsought.step idle.loops h
      known := mem_cons_self
      running := by simp [State.registered]
      loops := by simp [State.registered]
      held := by simp [State.registered]
      alone := fun b other mem => ?_
      entry := update_self _ _ _
      spent := fun y known other key => ?_ }
  · simp only [State.registered, update_of_ne other] at mem
    exact idle.held b mem
  · rcases mem_cons.mp known with rfl | old
    · exact absurd rfl other
    · exact (ok rfl y old key).step old h

lemma State.since_append (grown : t.events = evs ++ s.events) (old : .reGrantAccess a x ∉ evs) :
    t.since a x = evs ++ s.since a x := by
  unfold since
  rw [grown, takeWhile_append_of_pos]
  intro e mem
  have other : e ≠ .reGrantAccess a x := fun same => old (same ▸ mem)
  simpa using other

/-- An agent that brought a session back and neither stops nor reports the end of it. -/
def Returned (a : AgentPtr) (x : SessionPtr) (s : State cfg) : Prop :=
  .reGrantAccess a x ∈ s.events → (s.agents a).stopping = false → ¬ s.Ended x →
    Kept a x s ∧ ∀ y ≠ x, cfg.key y = cfg.key x → ∀ e ∈ s.since a x, e.concerns y = false

lemma Returned.step (R : Returned a x s) (fresh : s.Fresh) (blank : (s.view a).Blank)
    (h : Step s act t) (ok : Succeeds x s act) : Returned a x t := by
  intro brought alive lives
  obtain ⟨evs, grown, concerned, reported⟩ := concerned_of_step h
  by_cases new : .reGrantAccess a x ∈ evs
  · have own := reported a x new
    subst own
    cases h with
    | register phase unused alone =>
      refine ⟨.registered fresh (.register phase unused alone) unused ok, ?_⟩
      simp [since, registered]
  · have old : .reGrantAccess a x ∈ s.events := by
      rw [grown] at brought
      exact (mem_append.mp brought).resolve_left new
    have running : ¬ s.Ended x := by
      rintro ⟨final, kind, mem⟩
      exact lives ⟨final, kind, by rw [grown]; exact mem_append_right _ mem⟩
    have connected : a ∈ s.connected := by
      by_contra absent
      have none := blank.agent absent
      obtain ⟨K, -⟩ := R old (by rw [none]) running
      have held := K.held
      rw [none] at held
      exact Keyed.mem_empty held
    have before : (s.agents a).stopping = false := by
      by_contra stopping
      rw [stopping_of_step h connected (by simpa using stopping)] at alive
      cases alive
    obtain ⟨K, quiet⟩ := R old before running
    refine ⟨K.step fresh connected h ok alive lives, fun y other key e mem => ?_⟩
    rw [since_append grown new] at mem
    rcases mem_append.mp mem with late | early
    · by_contra concerns
      exact concerned y e late (by simpa using concerns) (K.idle fresh other key)
    · exact quiet y other key e early

def oneKey : Config where
  agent a := ⟨toString a, "pool", 1⟩
  request _ := { key := ⟨1, "s"⟩, pool := "pool", scheduler := "pool" }
  desired _ := 0

end Velda.Broker
