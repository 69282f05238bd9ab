import Mathlib
import Velda.Lib.Registry

/-! `pkg/broker/scheduler.go`. The agents and the sessions of a scheduler are two
registries: `p.agents` with `addAgent` and `removeAgent`, and `p.sessions` with
`addSession` and `removeSession`. A turn reads one message and then makes the match
that the top of the loop makes, if there is one. A turn is for agents and sessions
of any type, as the source is for `SessionLike`. -/
namespace Velda.Broker
open Lib Option

abbrev Rank := Int × String

def sessionComparator (a b : Rank) : Ordering :=
  if a.1 < b.1 then .lt
  else if b.1 < a.1 then .gt
  else if a.2 < b.2 then .lt
  else if b.2 < a.2 then .gt
  else .eq

variable {α σ : Type}

def first (rank : σ → Rank) : List σ → Option σ
  | [] => none
  | x :: rest =>
    match first rank rest with
    | none => some x
    | some y => if sessionComparator (rank y) (rank x) = .lt then some y else some x

lemma first_mem {rank : σ → Rank} (h : first rank l = some x) : x ∈ l := by
  induction l with
  | nil => cases h
  | cons y rest ih =>
    unfold first at h
    split at h
    · cases h
      exact List.mem_cons_self
    · next z found =>
      split at h
      · cases h
        exact List.mem_cons_of_mem _ (ih found)
      · cases h
        exact List.mem_cons_self

lemma first_eq_none {rank : σ → Rank} : first rank l = none ↔ l = [] := by
  cases l with
  | nil => simp [first]
  | cons y rest =>
    unfold first
    split
    · simp
    · split <;> simp

lemma sessionComparator_eq_lt {a b : Rank} : sessionComparator a b = .lt ↔ toLex a < toLex b := by
  rw [Prod.Lex.toLex_lt_toLex]
  unfold sessionComparator
  split_ifs <;> grind

lemma first_le {x : σ} {l : List σ} {rank : σ → Rank} (h : first rank l = some x) :
    ∀ y ∈ l, toLex (rank x) ≤ toLex (rank y) := by
  induction l generalizing x with
  | nil => cases h
  | cons z rest ih =>
    unfold first at h
    rw [List.forall_mem_cons]
    split at h
    · next none =>
      cases h
      simp [first_eq_none.mp none]
    · next found =>
      split at h
      · next less =>
        cases h
        exact ⟨(sessionComparator_eq_lt.mp less).le, ih found⟩
      · next more =>
        cases h
        rw [sessionComparator_eq_lt, not_lt] at more
        exact ⟨le_rfl, fun y mem => more.trans (ih found y mem)⟩

structure Scheduler (agentId : α → String) (rank : σ → Rank) where
  agents : Registry agentId
  sessions : Registry rank
  shuttingDown : Bool

inductive Select
  | addAgent | removeAgent | addSession | removeSession | cancelled
  deriving DecidableEq

/-- What a turn sends: confirmations, and an agent on the channel of a session. -/
structure Delivery (α σ : Type) where
  agentConfirm : Option α := none
  sessionConfirm : Option σ := none
  matched : Option (σ × α) := none

namespace Scheduler
variable {agentId : α → String} {rank : σ → Rank}

def empty : Scheduler agentId rank := ⟨.empty, .empty, false⟩

/-- The `select` of the loop; the loop has ended once it shuts down without agents. -/
def receive (p : Scheduler agentId rank) (c : Select) :
    Option (Scheduler agentId rank × Option α × Option σ) :=
  if p.shuttingDown ∧ p.agents.members.size = 0 then none
  else
    match c with
    | .addAgent => p.agents.takeAdd.map fun r => ({ p with agents := r }, none, none)
    | .removeAgent => p.agents.takeRemove.map fun (r, a) => ({ p with agents := r }, a, none)
    | .addSession => p.sessions.takeAdd.map fun r => ({ p with sessions := r }, none, none)
    | .removeSession => p.sessions.takeRemove.map fun (r, x) => ({ p with sessions := r }, none, x)
    | .cancelled => if p.shuttingDown then none else some ({ p with shuttingDown := true }, none, none)

variable [DecidableEq α]

/-- The match at the top of the loop, with the agent the map iteration yields. -/
def dispatch (p : Scheduler agentId rank) (pick : α) :
    Option (Scheduler agentId rank × Option (σ × α)) :=
  if p.shuttingDown ∨ p.agents.members.size = 0 then some (p, none)
  else
    match first rank p.sessions.members.entries with
    | none => some (p, none)
    | some x =>
      if pick ∈ p.agents.members then
        some ({ p with agents := p.agents.leave pick, sessions := p.sessions.leave x },
          some (x, pick))
      else none

def turn (p : Scheduler agentId rank) (c : Select) (pick : α) :
    Option (Scheduler agentId rank × Delivery α σ) :=
  (p.receive c).bind fun (p, agentConfirm, sessionConfirm) =>
    (p.dispatch pick).map fun (p, matched) => (p, ⟨agentConfirm, sessionConfirm, matched⟩)

lemma dispatch_cases {p q : Scheduler agentId rank} {matched : Option (σ × α)}
    (h : p.dispatch pick = some (q, matched)) :
    (q = p ∧ matched = none ∧ (p.shuttingDown = true ∨ p.agents.members.size = 0 ∨
      p.sessions.members.size = 0)) ∨
    ∃ x, matched = some (x, pick) ∧ x ∈ p.sessions.members ∧ pick ∈ p.agents.members ∧
      q = { p with agents := p.agents.leave pick, sessions := p.sessions.leave x } := by
  unfold dispatch at h
  split at h
  · next idle =>
    cases h
    refine .inl ⟨rfl, rfl, ?_⟩
    rcases idle with down | none
    · exact .inl down
    · exact .inr (.inl none)
  · split at h
    · next none =>
      cases h
      refine .inl ⟨rfl, rfl, .inr (.inr ?_)⟩
      rw [Keyed.size, first_eq_none.mp none, List.length_nil]
    · next x found =>
      split at h
      · next picked =>
        cases h
        exact .inr ⟨x, rfl, first_mem found, picked, rfl⟩
      · cases h

omit [DecidableEq α] in
lemma receive_read {p q : Scheduler agentId rank} (h : p.receive c = some (q, a, x)) :
    p.agents.Read q.agents a ∧ p.sessions.Read q.sessions x := by
  unfold receive at h
  split at h
  · cases h
  · cases c with
    | addAgent =>
      obtain ⟨r, taken, same⟩ := map_eq_some_iff.mp h
      cases same
      exact ⟨.add taken, .same⟩
    | removeAgent =>
      obtain ⟨⟨r, b⟩, taken, same⟩ := map_eq_some_iff.mp h
      cases same
      exact ⟨.remove taken, .same⟩
    | addSession =>
      obtain ⟨r, taken, same⟩ := map_eq_some_iff.mp h
      cases same
      exact ⟨.same, .add taken⟩
    | removeSession =>
      obtain ⟨⟨r, y⟩, taken, same⟩ := map_eq_some_iff.mp h
      cases same
      exact ⟨.same, .remove taken⟩
    | cancelled =>
      simp only at h
      split at h
      · cases h
      · cases h
        exact ⟨.same, .same⟩

omit [DecidableEq α] in
lemma receive_confirm {p q : Scheduler agentId rank} (h : p.receive c = some (q, a, x)) :
    (a ≠ none → c = .removeAgent) ∧ (x ≠ none → c = .removeSession) := by
  unfold receive at h
  split at h
  · cases h
  · cases c with
    | cancelled =>
      simp only at h
      split at h
      · cases h
      · cases h
        simp
    | _ =>
      obtain ⟨r, -, same⟩ := map_eq_some_iff.mp h
      cases same
      simp

omit [DecidableEq α] in
lemma receive_shuttingDown {p q : Scheduler agentId rank} (h : p.receive c = some (q, a, x))
    (down : p.shuttingDown = true) : q.shuttingDown = true := by
  unfold receive at h
  split at h
  · cases h
  · cases c with
    | cancelled => cases h
    | _ =>
      obtain ⟨r, -, same⟩ := map_eq_some_iff.mp h
      cases same
      exact down

lemma turn_cases {p q : Scheduler agentId rank} (h : p.turn c pick = some (q, d)) :
    ∃ m, p.receive c = some (m, d.agentConfirm, d.sessionConfirm) ∧
      ((q = m ∧ d.matched = none ∧ (m.shuttingDown = true ∨ m.agents.members.size = 0 ∨
          m.sessions.members.size = 0)) ∨
        ∃ x, d.matched = some (x, pick) ∧ x ∈ m.sessions.members ∧ pick ∈ m.agents.members ∧
          q = { m with agents := m.agents.leave pick, sessions := m.sessions.leave x }) := by
  obtain ⟨⟨m, a, x⟩, received, rest⟩ := bind_eq_some_iff.mp h
  obtain ⟨⟨q', matched⟩, dispatched, same⟩ := map_eq_some_iff.mp rest
  cases same
  exact ⟨m, received, dispatch_cases dispatched⟩

lemma turn_moves {p q : Scheduler agentId rank} (h : p.turn c pick = some (q, d)) :
    p.agents.Turn q.agents d.agentConfirm (d.matched.map (·.2)) ∧
      p.sessions.Turn q.sessions d.sessionConfirm (d.matched.map (·.1)) := by
  obtain ⟨m, received, rest⟩ := turn_cases h
  obtain ⟨agents, sessions⟩ := receive_read received
  rcases rest with ⟨rfl, none, -⟩ | ⟨x, some, hx, picked, rfl⟩
  · rw [none]
    exact ⟨.stay agents, .stay sessions⟩
  · rw [some]
    exact ⟨.leave agents picked, .leave sessions hx⟩

/-- A match takes the agent, and the session that comes before all those which go on waiting. -/
lemma matched_first {p q : Scheduler agentId rank} {x : σ} {d : Delivery α σ}
    (h : p.turn c pick = some (q, d)) (matched : d.matched = some (x, a)) :
    a ∉ q.agents.members ∧ x ∉ q.sessions.members ∧
      ∀ y ∈ q.sessions.members, sessionComparator (rank x) (rank y) = .lt := by
  obtain ⟨⟨m, _, _⟩, -, made⟩ := bind_eq_some_iff.mp h
  obtain ⟨⟨r, e⟩, dispatched, same⟩ := map_eq_some_iff.mp made
  cases same
  cases matched
  unfold dispatch at dispatched
  split at dispatched
  · cases dispatched
  · split at dispatched
    · cases dispatched
    · next first =>
      split at dispatched
      · cases dispatched
        refine ⟨by simp [Registry.leave], by simp [Registry.leave], fun y mem => ?_⟩
        obtain ⟨waits, other⟩ := Keyed.mem_erase.mp mem
        rw [sessionComparator_eq_lt]
        exact (first_le first y waits).lt_of_ne fun same => other (toLex.injective same).symm
      · cases dispatched

end Scheduler

end Velda.Broker
