import Velda.Fleet.System

/-! What the manager of a pool holds of a connected worker, against the sessions that the
connection has: the slots that are left, and whether it is idle. -/
namespace Velda.Broker
open Lib List Function AgentOutput State Agent Keyed AgentOutput Event Fleet

variable {cfg : Config}

def Config.SameWorker (cfg : Config) (a b : AgentPtr) : Prop :=
  cfg.agentId b = cfg.agentId a ∧ managerOf (cfg.agentPool b) = managerOf (cfg.agentPool a)

instance (a b : AgentPtr) : Decidable (cfg.SameWorker a b) := inferInstanceAs (Decidable (_ ∧ _))

def Event.reporter : Event → Option AgentPtr
  | .notifyAgentAvailable a _ _ | .markBusy a _ | .markIdle a _ => some a
  | _ => none

variable {a : AgentPtr} {g : Agent cfg} {f : Fleet cfg} {os : List Pool.Oracle}
  {r : Agent cfg × List AgentOutput} {act : Action} {evs : List Event} {op : Pool.Op AgentPtr}
  {revoked : Bool} {s : State cfg}

lemma Event.reporter_of_call {e : Event} {now : Time}
    (h : e.call cfg now o = some (managerOf (cfg.agentPool a), op))
    (reports : op.reports (cfg.agentId a) = true) :
    ∃ b, e.reporter = some b ∧ cfg.SameWorker a b := by
  cases e with
  | notifyAgentAvailable b | markBusy b | markIdle b =>
    simp only [call, Option.some.injEq, Prod.mk.injEq] at h
    obtain ⟨manager, rfl⟩ := h
    exact ⟨b, rfl, by simpa [Pool.Op.reports] using reports, manager⟩
  | requestWorker | requestCancelled | markDeleting | markLost =>
    simp only [call, Option.some.injEq, Prod.mk.injEq] at h
    obtain ⟨-, rfl⟩ := h
    cases reports
  | _ => cases h

namespace Fleet

def Shows (f : Fleet cfg) (a : AgentPtr) (slots : Int) (free : Prop) : Prop :=
  (f.pools (managerOf (cfg.agentPool a))).Shows (cfg.agentId a) slots free

lemma Shows.apply {g : Fleet cfg} {slots : Int} {free : Prop} {pool : String}
    (S : f.Shows a slots free) (h : f.apply pool op = some g)
    (silent : pool = managerOf (cfg.agentPool a) → op.reports (cfg.agentId a) = false) :
    g.Shows a slots free := by
  obtain ⟨p, told, applied, rfl⟩ := apply_eq h
  unfold Shows
  by_cases own : managerOf (cfg.agentPool a) = pool
  · subst own
    simp only [update_self]
    exact Pool.AutoScaledPool.Shows.apply S (silent rfl) applied
  · simp only [update_of_ne own]
    exact S

lemma Shows.deliver {g : Fleet cfg} {slots : Int} {free : Prop} (S : f.Shows a slots free)
    (h : deliver evs os f = some g)
    (silent : ∀ e ∈ evs, ∀ b, e.reporter = some b → ¬ cfg.SameWorker a b) :
    g.Shows a slots free := by
  refine deliver_rule (P := fun g => g.Shows a slots free) h S
    fun u v e mem now o pool op call shown applied => shown.apply applied fun own => ?_
  subst own
  by_contra reports
  obtain ⟨b, reporter, same⟩ := reporter_of_call call (by simpa using reports)
  exact silent e mem b reporter same

lemma deliver_append {g : Fleet cfg} {first second : List Event}
    (h : deliver (first ++ second) os f = some g) :
    ∃ u os', deliver first os f = some u ∧ deliver second os' u = some g := by
  induction first generalizing f os with
  | nil => exact ⟨f, os, rfl, h⟩
  | cons e rest ih =>
    rw [cons_append] at h
    unfold deliver at h
    split at h
    · next call =>
      obtain ⟨u, os', delivered, last⟩ := ih h
      refine ⟨u, os', ?_, last⟩
      simp only [deliver, call]
      exact delivered
    · next pool op call =>
      obtain ⟨v, applied, later⟩ := Option.bind_eq_some_iff.mp h
      obtain ⟨u, os', delivered, last⟩ := ih later
      refine ⟨u, os', ?_, last⟩
      simp only [deliver, call, applied]
      exact delivered

lemma deliver_last {g : Fleet cfg} {pool : String} {op : Pool.Oracle → Pool.Op AgentPtr}
    (call : ∀ now o, e.call cfg now o = some (pool, op o)) (h : deliver evs os f = some g)
    (last : evs.getLast? = some e) :
    ∃ (u : Fleet cfg) (o : Pool.Oracle) (told : List AgentPtr),
      (u.pools pool).apply (op o) = some (g.pools pool, told) := by
  obtain ⟨pre, rfl⟩ := List.getLast?_eq_some_iff.mp last
  obtain ⟨u, os', -, last⟩ := deliver_append h
  unfold deliver at last
  rw [call] at last
  obtain ⟨v, applied, done⟩ := Option.bind_eq_some_iff.mp last
  cases done
  obtain ⟨p, told, result, rfl⟩ := apply_eq applied
  exact ⟨u, _, told, by simpa using result⟩

end Fleet

/-- What a turn of a connection that goes on tells the pool: nothing, as long as it has as many
sessions as before, or last how many slots are left. -/
inductive Reported (a : AgentPtr) (before : Nat) (g : Agent cfg) (evs : List Event) : Prop
  | nothing : g.mySessions.size = before → (∀ e ∈ evs, e.reporter = none) →
      Reported a before g evs
  | idle : g.mySessions.size = 0 → evs.getLast? = some (.markIdle a (g.freeSlots a)) →
      Reported a before g evs
  | busy : 0 ≤ g.freeSlots a → evs.getLast? = some (.markBusy a (g.freeSlots a)) →
      Reported a before g evs
  | available {b : Bool} : (b = false → g.mySessions.size = 0) →
      evs.getLast? = some (.notifyAgentAvailable a b (g.freeSlots a)) → Reported a before g evs

lemma Agent.freeSlots_of_empty (h : g.mySessions.size = 0) : 0 ≤ g.freeSlots a := by
  unfold freeSlots
  omega

lemma Reported.shows {h : Agent cfg} (R : Reported a h.mySessions.size g evs)
    (before : u.Shows a (h.freeSlots a) (h.mySessions.size = 0) ∨ ∃ e ∈ evs, e.reporter ≠ none)
    (delivered : deliver evs os u = some v) :
    v.Shows a (g.freeSlots a) (g.mySessions.size = 0) := by
  cases R with
  | nothing same silent =>
    have shown := before.resolve_right
      (by rintro ⟨e, mem, reports⟩; exact reports (silent e mem))
    rw [freeSlots, ← same] at shown
    refine shown.deliver delivered fun e mem b reporter => ?_
    rw [silent e mem] at reporter
    cases reporter
  | idle empty last =>
    obtain ⟨w, o, told, applied⟩ := deliver_last (fun _ _ => rfl) delivered last
    exact Pool.AutoScaledPool.shows_markIdle (freeSlots_of_empty empty) empty applied
  | busy positive last =>
    obtain ⟨w, o, told, applied⟩ := deliver_last (fun _ _ => rfl) delivered last
    exact Pool.AutoScaledPool.shows_markBusy positive applied
  | available empty last =>
    obtain ⟨w, o, told, applied⟩ := deliver_last (fun _ _ => rfl) delivered last
    exact Pool.AutoScaledPool.shows_notify empty applied

instance (m : AgentUpdateRequest) (k : SessionKey) : Decidable (m.Names k) :=
  inferInstanceAs (Decidable (_ ∨ _))

/-- A message that ends a session ends all that the agent has, and an agent that reports a
checkpoint has one slot. -/
def Agent.Sole (g : Agent cfg) (a : AgentPtr) (m : AgentUpdateRequest) : Prop :=
  (∃ x ∈ g.mySessions.entries, m.Names (cfg.key x)) →
    (∀ x ∈ g.mySessions.entries, m.Names (cfg.key x)) ∧
      ((∃ c ∈ m.sessionCompletion, c.checkpointed = true) → cfg.slots a = 1)

instance (g : Agent cfg) (a : AgentPtr) (m : AgentUpdateRequest) : Decidable (g.Sole a m) :=
  inferInstanceAs (Decidable (_ → _))

namespace Agent

lemma size_eq_zero_iff : g.mySessions.size = 0 ↔ ∀ x, x ∉ g.mySessions := by
  rw [size, length_eq_zero_iff, eq_nil_iff_forall_not_mem]
  rfl

lemma left_init {init : Option (SessionKey × Bool)} (inited : g.Inited a init (h, outs))
    (mem : x ∈ h.mySessions) : x ∈ g.mySessions ∧ init ≠ some (cfg.key x, false) := by
  cases inited with
  | none => exact ⟨mem, by simp⟩
  | unknown success missing =>
    refine ⟨mem, fun same => ?_⟩
    cases same
    exact lookup_eq_none_iff.mp missing x mem rfl
  | started found => exact ⟨mem, by simp⟩
  | failed found =>
    obtain ⟨old, other⟩ := mem_erase.mp mem
    refine ⟨old, fun same => ?_⟩
    cases same
    exact other rfl

lemma left_completion {completion : Option SessionCompletion}
    (completed : g.Completed a revoked completion out) (alive : out.1.stopping = false)
    (mem : x ∈ out.1.mySessions) :
    x ∈ g.mySessions ∧ completion.map (·.key) ≠ some (cfg.key x) := by
  cases completed with
  | none => exact ⟨mem, by simp⟩
  | unknown missing =>
    exact ⟨mem, by simpa using (lookup_eq_none_iff.mp missing x mem).symm⟩
  | unrevoked => simp at alive
  | checkpointed | completed =>
    obtain ⟨old, other⟩ := mem_erase.mp mem
    exact ⟨old, by simpa using other.symm⟩

lemma reported_update (sole : g.Sole a m)
    (alive : (g.handleSessionUpdate a m revoked).1.stopping = false) :
    Reported a g.mySessions.size (g.handleSessionUpdate a m revoked).1
      ((g.handleSessionUpdate a m revoked).2.flatMap AgentOutput.events) := by
  obtain ⟨h, first, out, inited, completed, eq⟩ := g.updated a m revoked
  rw [eq] at alive ⊢
  have left : ∀ x ∈ out.1.mySessions, x ∈ g.mySessions ∧ ¬ m.Names (cfg.key x) := by
    intro x mem
    obtain ⟨still, kept⟩ := left_completion completed alive mem
    obtain ⟨here, goes⟩ := left_init inited still
    exact ⟨here, not_or.mpr ⟨goes, kept⟩⟩
  -- once a session is ended, none is left
  have empty : (∃ x ∈ g.mySessions.entries, m.Names (cfg.key x)) → out.1.mySessions.size = 0 := by
    intro ended
    refine size_eq_zero_iff.mpr fun x mem => ?_
    obtain ⟨here, goes⟩ := left x mem
    exact goes ((sole ended).1 x here)
  have slots := fun ended => (sole ended).2
  obtain ⟨init, completion⟩ := m
  cases completed with
  | none | unknown =>
    cases inited with
    | none | unknown => exact .nothing rfl (by simp)
    | started => exact .nothing rfl (by simp [AgentOutput.events])
    | failed found =>
      obtain ⟨mem, own⟩ := lookup_eq_some_iff.mp found
      exact .idle (empty ⟨_, mem, .inl (by simp [own])⟩) (by simp [AgentOutput.events])
  | unrevoked => simp at alive
  | @checkpointed c x found _ checkpoint =>
    obtain ⟨mem, own⟩ := lookup_eq_some_iff.mp found
    have ended : ∃ x ∈ g.mySessions.entries,
        AgentUpdateRequest.Names ⟨init, some c⟩ (cfg.key x) :=
      ⟨_, (left_init inited mem).1, .inr (congrArg some own.symm)⟩
    have full := slots ended ⟨_, rfl, checkpoint⟩
    have one : (h.rejoin c.key).freeSlots a = 1 := by
      have none := empty ended
      rw [freeSlots, none, full]
      rfl
    exact .idle (empty ended) (by simp [AgentOutput.events, one])
  | @completed c x found =>
    obtain ⟨mem, own⟩ := Keyed.lookup_eq_some_iff.mp found
    refine .idle (empty ⟨_, (left_init inited mem).1, .inr (congrArg some own.symm)⟩) ?_
    cases c.hasResult <;> simp [AgentOutput.events]

/-- The inputs after which the pool is told the truth: a message that ends sessions leaves none,
and the agent does not have more sessions than slots when it says so. -/
def Candid (g : Agent cfg) (a : AgentPtr) : AgentInput → Prop
  | .update m _ => g.Sole a m
  | .shutdown => g.mySessions.size ≤ cfg.slots a
  | .sessionReq r => r.accept = true → g.stopping = false →
      (g.mySessions.insert r.session).size ≤ cfg.slots a
  | _ => True

instance (g : Agent cfg) (a : AgentPtr) (input : AgentInput) : Decidable (g.Candid a input) := by
  induction input using AgentInput.casesOn <;> unfold Candid <;> infer_instance

/-- The inputs after which the pool is not told that the worker is idle or running. -/
def Mute (g : Agent cfg) : AgentInput → Prop
  | .update m _ => ∀ x ∈ g.mySessions.entries, ¬ m.Names (cfg.key x)
  | .shutdown => g.mySessions.size = 0
  | .sessionReq r => r.accept = true → g.stopping = true
  | _ => True

instance (g : Agent cfg) (input : AgentInput) : Decidable (g.Mute input) := by
  induction input using AgentInput.casesOn <;> unfold Mute <;> infer_instance

lemma silent_stop (g : Agent cfg) :
    ∀ e ∈ g.stop.2.flatMap AgentOutput.events, e.reporter = none := by
  unfold stop
  split
  · simp
  · cases g.receiving <;> simp [AgentOutput.events]

lemma reported_handle (candid : g.Candid a input) (alive : (g.handle a input).1.stopping = false) :
    Reported a g.mySessions.size (g.handle a input).1
      ((g.handle a input).2.flatMap AgentOutput.events) := by
  have handled := g.handled a input
  generalize g.handle a input = r at alive handled ⊢
  cases handled with
  | stop => exact .nothing (by rw [mySessions_stop]) g.silent_stop
  | update m revoked => exact reported_update candid alive
  | confirmed | released | drained => exact .nothing rfl (by simp [AgentOutput.events, Event.reporter])
  | withdrawn => exact .nothing rfl (by simp)
  | busy =>
    have room : g.mySessions.size ≤ cfg.slots a := candid
    have free : 0 ≤ g.freeSlots a := by
      unfold freeSlots
      omega
    exact .busy free (by simp [AgentOutput.events])
  | refused => exact .nothing rfl (by split <;> simp [AgentOutput.events])
  | @accepted q going accept =>
    have room := candid accept going
    have free : 0 ≤ (g.accept a q.session).freeSlots a := by
      unfold freeSlots Agent.accept
      simp only
      omega
    have size := g.mySessions.size_insert q.session
    unfold acceptOutputs
    cases held : (g.mySessions.lookup (cfg.key q.session)).isSome with
    | true =>
      rw [held] at size
      refine .nothing size ?_
      simp [AgentOutput.events]
    | false =>
      refine .busy free ?_
      cases (g.accept a q.session).receiving <;> cases q.holdResourceOnly <;>
      simp [AgentOutput.events]
  | _ => exact .nothing rfl (by simp [AgentOutput.events])

end Agent

def ReportedBy (a : AgentPtr) (evs : List Event) : Prop :=
  ∀ e ∈ evs, ∀ b, e.reporter = some b → b = a

lemma Turn.reporter (turn : Turn s act a r) (mem : e ∈ r.2.flatMap AgentOutput.events)
    (own : e.reporter = some b) :
    b = a ∧ (act = .startAgent a ∨ ∃ ev n input, act = .agent a ev ∧
      s.net.takeInput a ev = some (n, input) ∧ ¬ (s.agents a).Mute input) := by
  obtain ⟨o, made, logged⟩ := mem_flatMap.mp mem
  cases turn.made o made with
  | available =>
    cases mem_singleton.mp logged
    exact ⟨(Option.some.inj own).symm, .inl rfl⟩
  | @idle m x revoked _ message held named =>
    cases mem_singleton.mp logged
    exact ⟨(Option.some.inj own).symm, .inr ⟨_, _, .update m revoked, rfl,
      congrArg (Option.map _) message, fun mute => mute _ held named⟩⟩
  | busy _ asked some =>
    cases mem_singleton.mp logged
    refine ⟨(Option.some.inj own).symm, .inr ⟨_, _, .shutdown, rfl, if_neg asked, fun mute => ?_⟩⟩
    exact absurd mute (Nat.ne_of_gt some)
  | @taken q rest _ queue accept goes =>
    cases mem_singleton.mp logged
    refine ⟨(Option.some.inj own).symm, .inr ⟨_, { s.net with sessionReq := update _ a rest },
      .sessionReq q, rfl, by rw [Net.takeInput, queue], fun mute => ?_⟩⟩
    rw [mute accept] at goes
    cases goes
  | _ => simp_all [AgentOutput.events, Event.reporter]

lemma Turn.reportedBy (turn : Turn s act a r) : ReportedBy a (r.2.flatMap AgentOutput.events) :=
  fun _ mem _ own => (turn.reporter mem own).1

def State.Serves (s : State cfg) (a : AgentPtr) : Prop :=
  (s.agents a).phase = .running ∧ (s.agents a).stopping = false

instance (s : State cfg) (a : AgentPtr) : Decidable (s.Serves a) :=
  inferInstanceAs (Decidable (_ ∧ _))

/-- Steps after which what the pool holds of the worker of `a` is true: the agent is candid, a
message that starts a session does not fail, and no other connection reports under its name. -/
def Candid (a : AgentPtr) (f : Fleet cfg) : Fleet.Action → Prop
  | .broker (.startAgent b) _ => b ≠ a → f.broker.Serves a → ¬ cfg.SameWorker a b
  | .broker (.agent b e) _ => ∀ r ∈ f.broker.net.takeInput b e,
      (b = a → (f.broker.agents a).Candid a r.2) ∧
      (b ≠ a → f.broker.Serves a → cfg.SameWorker a b → (f.broker.agents b).Mute r.2)
  | .broker (.sender b _ sent) _ => b = a → sent = false →
      ∀ x ∈ (f.broker.net.resChan a).head?.bind Send.session?,
        (f.broker.agents a).mySessions.lookup (cfg.key x) = none
  | _ => True

instance (a : AgentPtr) (f : Fleet cfg) (act : Fleet.Action) : Decidable (Candid a f act) := by
  induction act using Fleet.Action.casesOn with
  | pool => exact inferInstanceAs (Decidable True)
  | broker act os => induction act using Action.casesOn <;> unfold Candid <;> infer_instance

lemma turn_or_silent (h : Step s act t) :
    (∃ c r, Turn s act c r ∧ t.agents = Function.update s.agents c r.1 ∧
      s.news t = r.2.flatMap AgentOutput.events) ∨
      (∀ e ∈ s.news t, e.reporter = none) ∧ ∀ a, t.Serves a → s.Serves a ∧
        (t.agents a).mySessions = (s.agents a).mySessions := by
  have performed : ∀ {n : Net cfg} {c : AgentPtr} {r : Agent cfg × List AgentOutput},
      (({ s with net := n } : State cfg).performAll c r).agents = Function.update s.agents c r.1 ∧
        s.news (({ s with net := n } : State cfg).performAll c r) =
          r.2.flatMap AgentOutput.events := by
    intro n c r
    have logged : (({ s with net := n } : State cfg).performAll c r).events =
        (r.2.flatMap AgentOutput.events).reverse ++ s.events := State.events_performAll _ c r
    exact ⟨performAll_agents _ c r, by rw [news_eq logged, reverse_reverse]⟩
  cases h with
  | startAgent => exact .inl ⟨_, _, .start rfl, performed⟩
  | agent _ taken => exact .inl ⟨_, _, .agent taken, performed⟩
  | sender granted sent _ queue => exact .inl ⟨_, _, .sender granted sent queue, performed⟩
  | killRunning | killSignal =>
    exact .inr ⟨forall_news rfl (by simp [reporter]), fun a serves => ⟨serves, rfl⟩⟩
  | @connect c =>
    refine .inr ⟨forall_news (l := []) rfl (by simp), fun a serves => ?_⟩
    by_cases own : a = c
    · subst own
      simp [State.Serves, modifyAgent] at serves
    · simpa [State.Serves, modifyAgent, update_of_ne own] using serves
  | @dropAgent c =>
    refine .inr ⟨forall_news (l := []) rfl (by simp), fun a serves => ?_⟩
    by_cases own : a = c
    · subst own
      simp [State.Serves, modifyAgent] at serves
    · simpa [State.Serves, modifyAgent, update_of_ne own] using serves
  | @recv c =>
    refine .inr ⟨forall_news (l := []) rfl (by simp), fun a serves => ?_⟩
    by_cases own : a = c
    · subst own
      simpa [State.Serves, modifyAgent, modifyNet] using serves
    · simpa [State.Serves, modifyAgent, modifyNet, update_of_ne own] using serves
  | @register c x registering =>
    refine .inr ⟨forall_news (l := [_]) rfl (by simp [reporter]), fun a serves => ?_⟩
    by_cases own : a = c
    · subst own
      simp [State.Serves, registered, registering] at serves
    · simpa [State.Serves, registered, update_of_ne own] using serves
  | loop found taken =>
    have agents := (sameOffers_loopStep taken).1
    refine .inr ⟨fun e mem => ?_,
      fun a serves => ⟨by simpa [State.Serves, agents] using serves, by rw [agents]⟩⟩
    cases source (.loop found taken) mem with
    | turn turn => cases turn
    | _ => rfl
  | _ =>
    exact .inr ⟨forall_news (l := []) rfl (by simp), fun a serves => ⟨serves, rfl⟩⟩

lemma Turn.reported (turn : Turn f.broker act a r) (candid : Candid a f (.broker act os))
    (alive : r.1.stopping = false) :
    Reported a (f.broker.agents a).mySessions.size r.1 (r.2.flatMap AgentOutput.events) := by
  cases turn with
  | @start _ idle same =>
    refine .available (b := !idle) (fun free => ?_) ?_
    · subst same
      simpa [launched] using free
    · cases idle <;> simp [AgentOutput.events, Agent.launched, Agent.freeSlots]
  | @agent _ e n input taken =>
    rw [stopping_settle] at alive
    rw [settle, if_neg (by simp [alive])]
    exact reported_handle ((candid (n, input) taken).1 rfl) alive
  | @sender _ g rest granted sent queue =>
    refine .nothing ?_ fun e mem => Option.eq_none_iff_forall_ne_some.mpr fun b own => ?_
    swap
    · simpa using (Turn.reporter (.sender granted sent queue) mem own).2
    cases g with
    | kill k =>
      cases sent with
      | true => rfl
      | false => exact congrArg size (mySessions_stop _)
    | session x ctx =>
      cases sent with
      | true => rfl
      | false =>
        have absent := candid rfl rfl x (by simp [queue, Send.session?])
        simp only [runSend]
        rw [erase_of_lookup_none absent]
        rfl

lemma Turn.serves (turn : Turn s act a r) (h : Step s act t)
    (serves : r.1.phase = .running ∧ r.1.stopping = false) :
    s.Serves a ∨ ∃ e ∈ r.2.flatMap AgentOutput.events, e.reporter ≠ none := by
  have goes : (s.agents a).stopping = false := by
    by_contra stopping
    have stops := turn.stopping (by simpa using stopping)
    rw [serves.2] at stops
    cases stops
  cases turn with
  | @start _ idle => exact .inr (by cases idle <;> simp [AgentOutput.events, Event.reporter])
  | agent =>
    cases h with
    | agent phase => exact .inl ⟨phase, goes⟩
  | sender granted sent =>
    have phase := serves.1
    rw [phase_runSend] at phase
    exact .inl ⟨phase, goes⟩

lemma Turn.silent (turn : Turn f.broker act b r) (candid : Candid a f (.broker act os))
    (other : b ≠ a) (serves : f.broker.Serves a) (same : cfg.SameWorker a b) :
    ∀ e ∈ r.2.flatMap AgentOutput.events, e.reporter = none := by
  refine fun e mem => Option.eq_none_iff_forall_ne_some.mpr fun c own => ?_
  rcases (turn.reporter mem own).2 with rfl | ⟨ev, n, input, rfl, taken, told⟩
  · exact candid other serves same
  · exact told ((candid _ taken).2 other serves same)

lemma ownOp_reports (h : ownOp op = true) (name : String) : op.reports name = false := by
  cases op <;> first | rfl | cases h

/-- What the pool holds of the worker of `a` is true, as long as the connection serves. -/
def Fleet.Known (f : Fleet cfg) (a : AgentPtr) : Prop :=
  f.broker.Serves a →
    f.Shows a ((f.broker.agents a).freeSlots a) ((f.broker.agents a).mySessions.size = 0)

lemma Fleet.Known.step {g : Fleet cfg} (K : f.Known a) (candid : Candid a f act)
    (h : f.step act = some g) : g.Known a := by
  rcases step_cases h with ⟨b, os, t, rfl, -, stepped, delivered⟩ | ⟨name, op, rfl, own, applied⟩
  · obtain ⟨-, c, broker⟩ := broker_deliver delivered
    intro serves
    rw [broker] at serves ⊢
    change t.Serves a at serves
    change g.Shows a ((t.agents a).freeSlots a) ((t.agents a).mySessions.size = 0)
    rcases turn_or_silent (Broker.step_cases stepped).2 with ⟨c, r, turn, agents, news⟩ | ⟨silent, same⟩
    · rw [news] at delivered
      unfold State.Serves at serves
      rw [agents] at serves ⊢
      by_cases own : a = c
      · subst own
        simp only [update_self] at serves ⊢
        refine (turn.reported candid serves.2).shows ?_ delivered
        exact (turn.serves (Broker.step_cases stepped).2 serves).imp K id
      · simp only [update_of_ne own] at serves ⊢
        refine Fleet.Shows.deliver (f := f.turned b t) (K serves) delivered
          fun e mem d reporter same => ?_
        obtain rfl := turn.reportedBy e mem d reporter
        rw [turn.silent candid (Ne.symm own) serves same e mem] at reporter
        cases reporter
    · obtain ⟨before, sessions⟩ := same a serves
      have shown := K before
      rw [freeSlots, ← sessions] at shown
      refine Fleet.Shows.deliver (f := f.turned b t) shown delivered fun e mem d reporter => ?_
      rw [silent e mem] at reporter
      cases reporter
  · obtain ⟨-, c, broker⟩ := broker_apply applied
    intro serves
    rw [broker] at serves ⊢
    exact (K serves).apply applied fun _ => ownOp_reports own _

/-- The slots that a pool holds free of a worker that serves are free, and a worker it holds for
idle has no session. -/
theorem worker_view_true (a : AgentPtr) {f : Fleet cfg}
    (h : Reachable Fleet.step (Candid a) Fleet.init f) (serves : f.broker.Serves a)
    {w : Pool.Worker AgentPtr}
    (known : (f.pools (managerOf (cfg.agentPool a))).workers.lookup (cfg.agentId a) = some w)
    (active : w.status = .idle ∨ w.status = .running) :
    w.availableSlot = (cfg.slots a : Int) - (f.broker.agents a).mySessions.size ∧
      (w.status = .idle → (f.broker.agents a).mySessions.size = 0) := by
  have shown : f.Known a := by
    refine Reachable.invariant (I := fun f : Fleet cfg => f.Known a) (fun serves => ?_)
      (fun f act g K candid taken => K.step candid taken) h
    cases serves.1
  exact shown serves w known active

theorem worker_view_true_two :
    ∃ f : Fleet (pool 2), Reachable Fleet.step (Candid 0) Fleet.init f ∧ f.broker.Serves 0 ∧
      ∃ w, (f.pools "pool").workers.lookup "0" = some w ∧ w.status = .running ∧
        w.availableSlot = (2 : Int) - (f.broker.agents 0).mySessions.size ∧
        w.availableSlot = 1 := by
  obtain ⟨f, reached, serves, w, known, status, slots⟩ :=
    exists_of_run Fleet.step (Candid 0) (Fleet.init : Fleet (pool 2))
      (Fleet.plain (List.flatten [joins 0, submits 0 0, accepts 0 0, starts (pool 2) 0 0,
        finishes (pool 2) 0 0, [.scheduler "pool" .addAgent 0], submits 1 0, accepts 1 0]))
      (fun f => f.broker.Serves 0 ∧ ∃ w ∈ (f.pools "pool").workers.lookup "0",
        w.status = .running ∧ w.availableSlot = 1) (by decide +kernel)
  exact ⟨f, reached, serves, w, known, status, (worker_view_true 0 reached serves known (.inr status)).1,
    slots⟩

/-- A worker that ends one of two sessions is held for idle; a worker with two slots that reports a
checkpoint is held for having one. -/
theorem worker_view_false :
    (∃ f : Fleet (pool 2), Reachable Fleet.step Fleet.Unblocked Fleet.init f ∧ f.broker.Serves 0 ∧
      (f.broker.agents 0).mySessions.size = 1 ∧
      ((f.pools "pool").workers.lookup "0").map Pool.Worker.status = some .idle) ∧
    ∃ f : Fleet (pool 2), Reachable Fleet.step Fleet.Unblocked Fleet.init f ∧ f.broker.Serves 0 ∧
      (f.broker.agents 0).mySessions.size = 0 ∧
      ((f.pools "pool").workers.lookup "0").map (fun w => (w.status, w.availableSlot)) =
        some (.idle, 1) := by
  refine ⟨?_, ?_⟩
  · exact exists_of_run _ _ _
      (plain (List.flatten [joins 0, submits 0 0, accepts 0 0, starts (pool 2) 0 0,
        [.scheduler "pool" .addAgent 0], submits 1 0, accepts 1 0,
        finishes (pool 2) 0 0])) _ (by decide +kernel)
  · exact exists_of_run _ _ _
      (plain (List.flatten [joins 0, submits 0 0, accepts 0 0, starts (pool 2) 0 0,
        [.scheduler "pool" .addAgent 0, .recv 0 { sessionCompletion := some ⟨(pool 2).key 0, true,
        false⟩ }, .agent 0 (.update true)]])) _ (by decide +kernel)

end Velda.Broker
