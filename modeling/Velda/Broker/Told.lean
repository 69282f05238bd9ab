import Velda.Broker.SessionView

/-! What the turns of an agent tell one session: the change of the session and the
responses it gets, together with whether the agent still has it. A message is taken
to carry one of its two parts. -/
namespace Velda.Broker
open Lib List AgentOutput

variable {cfg : Config}

def AgentInput.Stops : AgentInput → Prop
  | .done => True
  | .update m revoked => revoked = false ∧ m.sessionCompletion.isSome = true
  | _ => False

instance (input : AgentInput) : Decidable input.Stops := by
  induction input using AgentInput.casesOn <;> unfold AgentInput.Stops <;> infer_instance

def AgentInput.OnePart : AgentInput → Prop
  | .update m _ => m.sessionInitResponse = none ∨ m.sessionCompletion = none
  | _ => True

instance (input : AgentInput) : Decidable input.OnePart := by
  induction input using AgentInput.casesOn <;> unfold AgentInput.OnePart <;> infer_instance

def Agent.leaves (g : Agent cfg) (done : Ctx → Bool) (x : SessionPtr) (y : Session) : Session :=
  if g.stopping = false ∧ x ∈ g.mySessions then
    y.markStale (cfg.request x) done g.lastMessageTime
  else y

/-- What a turn on an input makes of the sessions of an agent `g` and of its `stopping`, of a
session `y`, and adds to the responses of the session. -/
inductive Told (x : SessionPtr) (done : Ctx → Bool) (y : Session) (g : Agent cfg) :
    AgentInput → Keyed cfg.key → Bool → Session → List AgentSessionResponse → Prop
  | nothing {input : AgentInput} {my : Keyed cfg.key} :
      (∀ r, input = .sessionReq r → r.accept = true → r.session = x → False) →
      (x ∈ my ↔ x ∈ g.mySessions) → Told x done y g input my g.stopping y []
  | stopped {input : AgentInput} : input.Stops →
      Told x done y g input g.mySessions true (g.leaves done x y) []
  | accepted {r : SessionRequest} {my : Keyed cfg.key} : g.stopping = false → r.accept = true →
      r.session = x → x ∈ my → Told x done y g (.sessionReq r) my false y []
  | displaced {r : SessionRequest} {my : Keyed cfg.key} : g.stopping = false → r.accept = true →
      r.session ≠ x → (x ∈ my ↔ x ∈ g.mySessions ∧ cfg.key x ≠ cfg.key r.session) →
      Told x done y g (.sessionReq r) my false y []
  | refused {r : SessionRequest} : g.stopping = true → r.accept = true → r.session = x →
      Told x done y g (.sessionReq r) g.mySessions true y [.error .stopping]
  | started {m : AgentUpdateRequest} {revoked : Bool} :
      m.sessionInitResponse = some (cfg.key x, true) → x ∈ g.mySessions →
      Told x done y g (.update m revoked) g.mySessions g.stopping y [.started]
  | failed {m : AgentUpdateRequest} {revoked : Bool} {my : Keyed cfg.key} (e : AgentError) :
      m.sessionInitResponse = some (cfg.key x, false) → x ∈ g.mySessions → x ∉ my →
      Told x done y g (.update m revoked) my g.stopping (y.finish .startupFailure) [.error e]
  | completed {m : AgentUpdateRequest} {c : SessionCompletion} {my : Keyed cfg.key} :
      m.sessionCompletion = some c → c.key = cfg.key x → x ∈ g.mySessions → x ∉ my →
      Told x done y g (.update m true) my g.stopping (y.finish .complete) []
  | checkpointed {m : AgentUpdateRequest} {c : SessionCompletion} {my : Keyed cfg.key} :
      m.sessionCompletion = some c → c.key = cfg.key x → x ∈ g.mySessions → x ∉ my →
      Told x done y g (.update m true) my g.stopping { y with status := .checkpointed } []

variable {x : SessionPtr} {m : AgentUpdateRequest} {revoked : Bool}
  {out : Agent cfg × List AgentOutput}

namespace Agent

lemma onSessions_stop (g : Agent cfg) (done : Ctx → Bool) (x : SessionPtr) (y : Session) :
    onSessions cfg done x y g.stop.2 = g.leaves done x y ∧
      g.stop.2.filterMap (onResponse x) = [] := by
  unfold stop leaves onSessions
  cases g.stopping with
  | true => simp
  | false =>
    cases g.receiving <;>
      simp [onSession, onResponse, Keyed.mem_def]

@[simp] lemma stopping_rejoin (g : Agent cfg) (k : SessionKey) :
    (g.rejoin k).stopping = g.stopping := rfl

lemma mem_rejoin {g : Agent cfg} (held : g.mySessions.lookup k = some z) :
    x ∈ (g.rejoin k).mySessions ↔ x ∈ g.mySessions ∧ x ≠ z := by
  obtain ⟨mem, rfl⟩ := Keyed.lookup_eq_some_iff.mp held
  rw [rejoin, Keyed.mem_erase]
  refine and_congr_right fun here => ⟨fun other same => other (same ▸ rfl), fun other same => ?_⟩
  exact other (Keyed.eq_of_key_eq here mem same)

lemma told_nothing {done : Ctx → Bool} (same : x ∈ my ↔ x ∈ g.mySessions) :
    Told x done y g (.update m revoked) my g.stopping y [] :=
  .nothing (fun _ request => by cases request) same

lemma told_rejoin {done : Ctx → Bool} (held : g.mySessions.lookup k = some z) (other : z ≠ x) :
    Told x done y g (.update m revoked) (g.rejoin k).mySessions g.stopping y [] :=
  told_nothing ((mem_rejoin held).trans (and_iff_left (Ne.symm other)))

section

variable (g : Agent cfg) (a : AgentPtr)
include g a

lemma told_init {done : Ctx → Bool} (h : g.Inited a m.sessionInitResponse out) :
    Told x done y g (.update m revoked) out.1.mySessions out.1.stopping
      (onSessions cfg done x y out.2) (out.2.filterMap (onResponse x)) := by
  generalize init : m.sessionInitResponse = response at h
  cases h with
  | none | unknown => exact told_nothing Iff.rfl
  | @started k z held =>
    obtain ⟨mem, rfl⟩ := Keyed.lookup_eq_some_iff.mp held
    by_cases own : z = x
    · subst own
      simpa [onSessions, onSession, onResponse] using
        Told.started init mem
    · simpa [onSessions, onSession, onResponse, own] using
        told_nothing Iff.rfl
  | @failed k z held =>
    obtain ⟨mem, key⟩ := Keyed.lookup_eq_some_iff.mp held
    by_cases own : z = x
    · subst own
      simpa [onSessions, onSession, onResponse, filterMap_cons] using
        Told.failed (.failedToStart (cfg.agentId a)) (by rw [init, key]) mem
          (fun still => ((mem_rejoin held).mp still).2 rfl)
    · simpa [onSessions, onSession, onResponse, filterMap_cons, own] using
        told_rejoin held own

lemma told_completion {done : Ctx → Bool} (h : g.Completed a revoked m.sessionCompletion out) :
    Told x done y g (.update m revoked) out.1.mySessions out.1.stopping
      (onSessions cfg done x y out.2) (out.2.filterMap (onResponse x)) := by
  generalize completion : m.sessionCompletion = report at h
  cases h with
  | none | unknown => exact told_nothing Iff.rfl
  | unrevoked held failed =>
    obtain ⟨session, responses⟩ := g.onSessions_stop done x y
    have stopped : Told x done y g (.update m revoked) g.mySessions true (g.leaves done x y) [] :=
      .stopped ⟨failed, by rw [completion]; rfl⟩
    rw [← session] at stopped
    simpa [onSessions, onSession, onResponse,
        filterMap_cons, responses, stopping_stop]
      using stopped
  | @checkpointed c z held ok =>
    subst ok
    obtain ⟨mem, key⟩ := Keyed.lookup_eq_some_iff.mp held
    by_cases own : z = x
    · subst own
      simpa [onSessions, onSession, onResponse, filterMap_cons] using
        Told.checkpointed completion key.symm mem
          (fun still => ((mem_rejoin held).mp still).2 rfl)
    · simpa [onSessions, onSession, onResponse, filterMap_cons, own] using
        told_rejoin held own
  | @completed c z held ok =>
    subst ok
    obtain ⟨mem, key⟩ := Keyed.lookup_eq_some_iff.mp held
    have gone : z = x → x ∉ (g.rejoin c.key).mySessions :=
      fun own still => ((mem_rejoin held).mp still).2 own.symm
    by_cases own : z = x
    · subst own
      cases c.hasResult <;>
      simpa [onSessions, onSession, onResponse, filterMap_cons] using
        Told.completed completion key.symm mem (gone rfl)
    · cases c.hasResult <;>
      simpa [onSessions, onSession, onResponse, filterMap_cons, own] using
        told_rejoin held own

lemma told_update (one : AgentInput.OnePart (.update m revoked))
    (x : SessionPtr) (done : Ctx → Bool) (y : Session) :
    Told x done y g (.update m revoked) (g.handleSessionUpdate a m revoked).1.mySessions
      (g.handleSessionUpdate a m revoked).1.stopping
      (onSessions cfg done x y (g.handleSessionUpdate a m revoked).2)
      ((g.handleSessionUpdate a m revoked).2.filterMap (onResponse x)) := by
  obtain ⟨h, first, out, inited, completed, eq⟩ := g.updated a m revoked
  rw [eq]
  rcases one with none | none
  · rw [none] at inited
    cases inited
    exact g.told_completion a completed
  · have told : Told x done y g (.update m revoked) h.mySessions h.stopping
        (onSessions cfg done x y first)
        (first.filterMap (onResponse x)) := g.told_init a inited
    rw [none] at completed
    cases completed
    simpa using told

lemma told_request (h : g.Handled a (.sessionReq r) out) (x : SessionPtr) (done : Ctx → Bool)
    (y : Session) :
    Told x done y g (.sessionReq r) out.1.mySessions out.1.stopping
      (onSessions cfg done x y out.2) (out.2.filterMap (onResponse x)) := by
  have declined : r.accept = false → ∀ q, AgentInput.sessionReq r = .sessionReq q →
      q.accept = true → q.session = x → False := by
    rintro no q ⟨⟩ yes
    rw [no] at yes
    cases yes
  cases h with
  | refused stopping =>
    cases accept : r.accept with
    | false => exact .nothing (declined accept) Iff.rfl
    | true =>
      by_cases own : r.session = x
      · simpa [onSessions, onSession, onResponse, own, stopping]
          using Told.refused stopping accept own
      · simpa [onSessions, onSession, onResponse, own] using
          Told.nothing (fun q same _ => by cases same; exact own) Iff.rfl
  | released _ _ no | declined _ _ no => exact .nothing (declined no) Iff.rfl
  | accepted alive yes =>
    have silent : onSessions cfg done x y (g.acceptOutputs a r) = y ∧
        (g.acceptOutputs a r).filterMap (onResponse x) = [] := by
      unfold acceptOutputs onSessions
      cases (g.accept a r.session).receiving <;>
      cases (g.mySessions.lookup (cfg.key r.session)).isSome <;> cases r.holdResourceOnly <;>
      simp [onSession, onResponse]
    rw [silent.1, silent.2]
    have still : (g.accept a r.session).stopping = false := alive
    rw [still]
    by_cases own : r.session = x
    · exact .accepted alive yes own (Keyed.mem_insert.mpr (.inl own.symm))
    · exact .displaced alive yes own (Keyed.mem_insert.trans (or_iff_right (Ne.symm own)))

end

lemma onSessions_settle (a : AgentPtr) (r : Agent cfg × List AgentOutput) (x : SessionPtr)
    (done : Ctx → Bool) (y : Session) :
    onSessions cfg done x y (settle a r).2 = onSessions cfg done x y r.2 ∧
      (settle a r).2.filterMap (onResponse x) = r.2.filterMap (onResponse x) := by
  unfold settle
  split
  · simp [onSessions, onSession, onResponse]
  · exact ⟨rfl, rfl⟩

lemma told_handle (g : Agent cfg) (a : AgentPtr) (one : input.OnePart) (x : SessionPtr)
    (done : Ctx → Bool) (y : Session) :
    Told x done y g input (g.handle a input).1.mySessions (g.handle a input).1.stopping
      (onSessions cfg done x y (g.handle a input).2)
      ((g.handle a input).2.filterMap (onResponse x)) := by
  have handled := g.handled a input
  generalize g.handle a input = out at handled ⊢
  cases handled with
  | stop =>
    obtain ⟨session, responses⟩ := g.onSessions_stop done x y
    rw [session, responses, mySessions_stop, stopping_stop]
    exact .stopped trivial
  | update m revoked => exact g.told_update a one x done y
  | refused stopping => exact g.told_request a (.refused stopping) x done y
  | released alive asked no => exact g.told_request a (.released alive asked no) x done y
  | declined alive asked no => exact g.told_request a (.declined alive asked no) x done y
  | accepted alive yes => exact g.told_request a (.accepted alive yes) x done y
  | _ =>
    exact .nothing (fun _ same => by cases same) Iff.rfl

end Agent

end Velda.Broker
