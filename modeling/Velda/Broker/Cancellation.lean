import Velda.Broker.Scheduler
import Velda.Lib.Run

/-! A scheduler under any callers of `AddAgent`, `RemoveAgent`, `AddSession` and
`RemoveSession`, with the history of the calls and of what was delivered. Agents
and sessions are two accounts with the same rules. -/
namespace Velda.Broker
open Lib List Option

inductive Call (α : Type)
  | add (a : α)
  | remove (a : α)
  deriving DecidableEq

def Call.of {α : Type} : Call α → α
  | .add a | .remove a => a

variable {α σ κ : Type} {key : α → κ} [DecidableEq α]

/-- Calls are listed newest first. -/
structure Account (key : α → κ) where
  registry : Registry key
  calls : List (Call α)
  matched : List α
  confirmed : List α

variable {s : Account key} {a : α} {r : Registry key}

namespace Account

def empty : Account key := ⟨.empty, [], [], []⟩

def call (s : Account key) (c : Call α) : Account key :=
  { s with
    calls := c :: s.calls
    registry :=
      match c with
      | .add a => s.registry.sendAdd a
      | .remove a => s.registry.sendRemove a }

def lastCall (s : Account key) (a : α) : Option (Call α) := s.calls.find? (·.of = a)

/-- Nothing waits in the set or before it under the key of `a`. -/
def Clear (s : Account key) (a : α) : Prop :=
  s.registry.Fresh a ∧ ∀ b ∈ s.registry.adds, key b ≠ key a

/-- The adds sent before the next removal have been read, and it can only remove its own. -/
def InOrder (s : Account key) : Prop :=
  ∀ a ∈ s.registry.removes.head?, a ∉ s.registry.adds ∧ s.registry.Sole a

/-- Each add is waiting, or has been answered once, and a removal that was read leaves nothing. -/
structure Balanced (s : Account key) : Prop where
  ledger : ∀ a, s.calls.count (.add a) =
    s.registry.waiting a + s.matched.count a + s.confirmed.count a
  settled : ∀ a, s.lastCall a = some (.remove a) → a ∉ s.registry.removes →
    s.registry.waiting a = 0
  distinct : (s.registry.adds.map key).Nodup ∧ ∀ a ∈ s.registry.adds, s.registry.Fresh a

lemma Balanced.empty : Balanced (empty : Account key) := by
  refine ⟨fun a => ?_, ?_, ?_⟩
  · rfl
  · simp [Account.empty]
  · simp [Account.empty, Registry.empty]

lemma lastCall_call (s : Account key) (c : Call α) (a : α) :
    (s.call c).lastCall a = if c.of = a then some c else s.lastCall a := by
  simp only [lastCall, call]
  by_cases same : c.of = a <;> simp [same]

lemma Balanced.add (B : Balanced s) (clear : s.Clear a) : Balanced (s.call (.add a)) := by
  refine ⟨fun b => ?_, fun b last done => ?_, ?_, ?_⟩
  · have before := B.ledger b
    simp only [call, Registry.waiting_sendAdd, count_cons, beq_iff_eq, Call.add.injEq]
    omega
  · rw [lastCall_call] at last
    by_cases same : a = b
    · simp [Call.of, same] at last
    · rw [if_neg (show ¬ (Call.add a).of = b from same)] at last
      simpa [call, same] using B.settled b last done
  · simp only [call, Registry.sendAdd, map_append]
    refine nodup_append.mpr ⟨B.distinct.1, by simp, ?_⟩
    rintro k hk _ hk' rfl
    obtain ⟨b, hb, rfl⟩ := mem_map.mp hk
    exact clear.2 b hb (mem_singleton.mp hk')
  · intro b hb
    rcases mem_append.mp hb with old | new
    · exact B.distinct.2 b old
    · obtain rfl := mem_singleton.mp new
      exact clear.1

lemma Balanced.remove (B : Balanced s) : Balanced (s.call (.remove a)) := by
  refine ⟨fun b => ?_, fun b last done => ?_, B.distinct.1, B.distinct.2⟩
  · simpa [call] using B.ledger b
  · simp only [call, Registry.sendRemove, mem_append, mem_singleton, not_or] at done
    rw [lastCall_call, if_neg (show ¬ (Call.remove a).of = b from fun same => done.2 same.symm)]
      at last
    exact B.settled b last done.1

/-- What is left after the scheduler has moved this side to `r` and sent these answers. -/
def answer (s : Account key) (r : Registry key) (confirmed matched : Option α) : Account key :=
  { s with
    registry := r
    confirmed := confirmed.toList ++ s.confirmed
    matched := matched.toList ++ s.matched }

lemma count_toList_append (o : Option α) (l : List α) (a : α) :
    (o.toList ++ l).count a = (if o = some a then 1 else 0) + l.count a := by
  cases o <;> simp [count_cons, Nat.add_comm]

lemma Balanced.answered (B : Balanced s) (last : s.lastCall a = some (.remove a))
    (done : a ∉ s.registry.removes) : a ∉ s.registry.members ∧
      s.matched.count a + s.confirmed.count a = s.calls.count (.add a) := by
  have none := B.settled a last done
  have total := B.ledger a
  exact ⟨(Registry.waiting_eq_zero_iff.mp none).2, by omega⟩

lemma Balanced.answer {confirmed matched : Option α} (B : Balanced s)
    (moved : ∀ b, r.waiting b + (if matched = some b then 1 else 0) +
      (if confirmed = some b then 1 else 0) = s.registry.waiting b)
    (read : ∀ b ∈ s.registry.removes, b ∉ r.removes → r.waiting b = 0)
    (adds : r.adds <:+ s.registry.adds) (fresh : ∀ a ∈ r.adds, r.Fresh a) :
    Balanced (s.answer r confirmed matched) := by
  refine ⟨fun b => ?_, fun b last done => ?_, B.distinct.1.sublist (adds.sublist.map key), fresh⟩
  · have before := B.ledger b
    have now := moved b
    simp only [Account.answer, count_toList_append]
    omega
  · by_cases waits : b ∈ s.registry.removes
    · exact read b waits done
    · have before := B.settled b last waits
      have now := moved b
      simp only [Account.answer]
      omega

variable [DecidableEq κ]

lemma Balanced.takeAdd (B : Balanced s) (taken : s.registry.takeAdd = some r) :
    Balanced (s.answer r none none) := by
  have same := Registry.waiting_takeAdd_fresh
    (fun a ha => B.distinct.2 a (mem_of_mem_head? ha)) taken
  obtain ⟨a, rest, adds, rfl⟩ := Registry.takeAdd_cases taken
  have distinct := B.distinct
  simp only [adds, map_cons, nodup_cons, mem_cons] at distinct
  refine B.answer (fun b => by simpa using same b) (fun b waits done => absurd waits done)
    ⟨[a], adds.symm⟩ fun b hb c hc => ?_
  rcases Keyed.mem_insert.mp hc with rfl | ⟨old, -⟩
  · exact fun atKey => distinct.1.1 (atKey ▸ mem_map_of_mem hb)
  · exact distinct.2 b (.inr hb) c old

lemma Balanced.takeRemove {confirmed : Option α} (B : Balanced s) (order : s.InOrder)
    (taken : s.registry.takeRemove = some (r, confirmed)) :
    Balanced (s.answer r confirmed none) := by
  have moved := Registry.waiting_takeRemove (fun a ha => (order a ha).2) taken
  obtain ⟨a, rest, removes, cases⟩ := Registry.takeRemove_cases taken
  have absent := (order a (by rw [removes]; rfl)).1
  have kept : r.adds = s.registry.adds ∧ r.removes = rest ∧
      (∀ b ∈ r.members, b ∈ s.registry.members ∧ key b ≠ key a) := by
    rcases cases with ⟨-, -, rfl⟩ | ⟨none, -, rfl⟩
    · exact ⟨rfl, rfl, fun b hb => Keyed.mem_erase.mp hb⟩
    · exact ⟨rfl, rfl, fun b hb => ⟨hb, Keyed.lookup_eq_none_iff.mp none b hb⟩⟩
  obtain ⟨adds, rfl, members⟩ := kept
  refine B.answer (fun b => by simpa using moved b) (fun b waits done => ?_) (adds ▸ suffix_rfl)
    fun b hb c hc => B.distinct.2 b (adds ▸ hb) c (members c hc).1
  rw [removes, mem_cons] at waits
  obtain rfl := waits.resolve_right done
  exact Registry.waiting_eq_zero_iff.mpr ⟨adds ▸ absent, fun mem => (members b mem).2 rfl⟩

lemma Balanced.leave (B : Balanced s) (mem : a ∈ s.registry.members) :
    Balanced (s.answer (s.registry.leave a) none (some a)) := by
  refine B.answer (fun b => by simpa using Registry.waiting_leave mem b)
    (fun b waits done => absurd waits done) suffix_rfl fun b hb c hc => ?_
  exact B.distinct.2 b hb c (Keyed.mem_erase.mp hc).1

end Account

section Exchange
variable [DecidableEq σ] {agentId : α → String} {rank : σ → Rank}

structure Exchange (agentId : α → String) (rank : σ → Rank) where
  agents : Account agentId
  sessions : Account rank
  shuttingDown : Bool

namespace Exchange

def empty : Exchange agentId rank := ⟨.empty, .empty, false⟩

def scheduler (s : Exchange agentId rank) : Scheduler agentId rank :=
  ⟨s.agents.registry, s.sessions.registry, s.shuttingDown⟩

inductive Action (α σ : Type)
  | agentCall (c : Call α)
  | sessionCall (c : Call σ)
  | turn (c : Select) (pick : α)

def step (s : Exchange agentId rank) : Action α σ → Option (Exchange agentId rank)
  | .agentCall c => some { s with agents := s.agents.call c }
  | .sessionCall c => some { s with sessions := s.sessions.call c }
  | .turn c pick =>
    (s.scheduler.turn c pick).map fun (p, d) =>
      ⟨s.agents.answer p.agents d.agentConfirm (d.matched.map (·.2)),
        s.sessions.answer p.sessions d.sessionConfirm (d.matched.map (·.1)),
        p.shuttingDown⟩

/-- Nothing is added while its key is still there, and no removal overtakes its add. -/
def Orderly (s : Exchange agentId rank) : Action α σ → Prop
  | .agentCall (.add a) => s.agents.Clear a
  | .sessionCall (.add x) => s.sessions.Clear x
  | .turn .removeAgent _ => s.agents.InOrder
  | .turn .removeSession _ => s.sessions.InOrder
  | _ => True

def Kept (s : Exchange agentId rank) : Prop := s.agents.Balanced ∧ s.sessions.Balanced

lemma receive_kept {s : Exchange agentId rank} {a : Option α} {x : Option σ} (K : s.Kept)
    (ok : s.Orderly (.turn c pick)) (h : s.scheduler.receive c = some (p, a, x)) :
    Kept ⟨s.agents.answer p.agents a none, s.sessions.answer p.sessions x none, p.shuttingDown⟩ := by
  unfold Scheduler.receive at h
  split at h
  · cases h
  · cases c with
    | addAgent =>
      obtain ⟨r, taken, same⟩ := map_eq_some_iff.mp h
      cases same
      exact ⟨K.1.takeAdd taken, K.2⟩
    | removeAgent =>
      obtain ⟨⟨r, a⟩, taken, same⟩ := map_eq_some_iff.mp h
      cases same
      exact ⟨K.1.takeRemove ok taken, K.2⟩
    | addSession =>
      obtain ⟨r, taken, same⟩ := map_eq_some_iff.mp h
      cases same
      exact ⟨K.1, K.2.takeAdd taken⟩
    | removeSession =>
      obtain ⟨⟨r, x⟩, taken, same⟩ := map_eq_some_iff.mp h
      cases same
      exact ⟨K.1, K.2.takeRemove ok taken⟩
    | cancelled =>
      simp only at h
      split at h
      · cases h
      · cases h
        exact K

lemma step_kept {s t : Exchange agentId rank} (K : s.Kept) (ok : s.Orderly act)
    (h : s.step act = some t) : t.Kept := by
  cases act with
  | agentCall c =>
    cases h
    cases c with
    | add a => exact ⟨K.1.add ok, K.2⟩
    | remove a => exact ⟨K.1.remove, K.2⟩
  | sessionCall c =>
    cases h
    cases c with
    | add x => exact ⟨K.1, K.2.add ok⟩
    | remove x => exact ⟨K.1, K.2.remove⟩
  | turn c pick =>
    obtain ⟨⟨q, d⟩, turned, rfl⟩ := map_eq_some_iff.mp h
    obtain ⟨⟨p, a, x⟩, received, rest⟩ := bind_eq_some_iff.mp turned
    obtain ⟨⟨q', matched⟩, dispatched, same⟩ := map_eq_some_iff.mp rest
    cases same
    have mid := receive_kept K ok received
    rcases Scheduler.dispatch_cases dispatched with ⟨rfl, rfl, -⟩ | ⟨y, rfl, hy, picked, rfl⟩
    · exact mid
    · exact ⟨mid.1.leave picked, mid.2.leave hy⟩

/-- In an orderly run, once the last call on a session or an agent is a removal and no
message about it is left, it is not in the set, and every add of it was answered by one
match or one confirmation. -/
theorem cancellation_answered {s : Exchange agentId rank}
    (h : Reachable step Orderly empty s) :
    (∀ x, s.sessions.lastCall x = some (.remove x) → x ∉ s.sessions.registry.adds →
      x ∉ s.sessions.registry.removes → x ∉ s.sessions.registry.members ∧
        s.sessions.matched.count x + s.sessions.confirmed.count x =
          s.sessions.calls.count (.add x)) ∧
    ∀ a, s.agents.lastCall a = some (.remove a) → a ∉ s.agents.registry.adds →
      a ∉ s.agents.registry.removes → a ∉ s.agents.registry.members ∧
        s.agents.matched.count a + s.agents.confirmed.count a = s.agents.calls.count (.add a) := by
  have K : s.Kept := h.invariant ⟨.empty, .empty⟩ fun _ _ _ K ok taken => step_kept K ok taken
  exact ⟨fun x last _ done => K.2.answered last done, fun a last _ done => K.1.answered last done⟩

instance (s : Exchange agentId rank) (act : Action α σ) : Decidable (s.Orderly act) := by
  induction act using Action.casesOn with
  | agentCall c | sessionCall c =>
    induction c using Call.casesOn <;> unfold Orderly <;> dsimp only [Account.Clear] <;>
      infer_instance
  | turn c pick =>
    induction c using Select.casesOn <;> unfold Orderly <;> dsimp only [Account.InOrder] <;>
      infer_instance

theorem cancellation_answered_confirmed :
    ∃ s : Exchange (fun _ : Nat => "agent") (fun _ : Nat => ((0 : Int), "session")),
      Reachable step Orderly empty s ∧ (7 ∉ s.sessions.registry.members ∧
        s.sessions.matched.count 7 + s.sessions.confirmed.count 7 = 1) := by
  obtain ⟨s, reached, last, adds, removes, once⟩ := exists_of_run
    (@step Nat Nat _ (fun _ => "agent") (fun _ => (0, "session"))) Orderly empty
    [.sessionCall (.add 7), .turn .addSession 0, .sessionCall (.remove 7), .turn .removeSession 0]
    (fun s => s.sessions.lastCall 7 = some (.remove 7) ∧ 7 ∉ s.sessions.registry.adds ∧
      7 ∉ s.sessions.registry.removes ∧ s.sessions.calls.count (.add 7) = 1) (by decide)
  exact ⟨s, reached, once ▸ (cancellation_answered reached).1 7 last adds removes⟩

/-- The removal is read before the add: it is dropped, and the session stays in the set. -/
theorem cancellation_lost :
    ∃ s : Exchange (fun _ : Nat => "agent") (fun _ : Nat => ((0 : Int), "session")),
      Reachable step Any empty s ∧ s.sessions.calls = [.remove 7, .add 7] ∧
        s.sessions.registry.adds = [] ∧ s.sessions.registry.removes = [] ∧
        7 ∈ s.sessions.registry.members ∧ s.sessions.matched = [] ∧ s.sessions.confirmed = [] :=
  exists_of_run _ _ _
    [.sessionCall (.add 7), .sessionCall (.remove 7), .turn .removeSession 0,
      .turn .addSession 0] _ (by decide)

end Exchange
end Exchange

end Velda.Broker
