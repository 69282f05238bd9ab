import Velda.Lib.Run

/-! The network bindings of an agent: `NetworkDaemon` of `net.go`, and its use by `Runner.Run` of
`runner.go` and by the loop of the agent. The pool holds one binding for each session. -/
namespace Velda.Agentd
open Lib List Option

inductive AgentIp
  | unset
  | privateCidrRange (maskSize : Option Nat)
  | detectGcpAliasIpRanges

inductive NetworkMode
  | unspecified | host | bridge
  deriving DecidableEq

structure NetworkConfig where
  networkMode : NetworkMode
  agentIp : AgentIp := .unset

/-- `slot` is the turn of the loop that made the binding. -/
structure NetworkBinding where
  slot : Nat
  agentPort : Nat
  netNamespace : Int
  deriving DecidableEq

def initHostNetwork (maxSize : Nat) : List NetworkBinding :=
  (List.range' 1 maxSize).map fun i => ⟨i, 0, -1⟩

/-- `handles` are the namespaces that the kernel makes, `none` where a call fails. -/
def initBridgeNetwork (maxSize : Nat) (ip : AgentIp) (handles : Option (Nat → Int)) :
    Option (List NetworkBinding) :=
  let mask := match ip with
    | .unset => some 24
    | .privateCidrRange maskSize => maskSize
    | .detectGcpAliasIpRanges => none
  if maxSize > 254 then none
  else mask.bind fun maskSize =>
    if maskSize > 32 ∨ 2 ^ (32 - maskSize) < maxSize + 2 then none
    else handles.map fun handle => (List.range' 1 maxSize).map fun i => ⟨i, 2222 + i, handle i⟩

/-- The pool that `GetNetworkDaemon` makes for a positive size, or an error. -/
def getNetworkDaemon (maxSize : Nat) (cfg : Option NetworkConfig) (handles : Option (Nat → Int)) :
    Option (List NetworkBinding) :=
  match cfg with
  | none => some (initHostNetwork maxSize)
  | some cfg =>
    match cfg.networkMode with
    | .unspecified => some []
    | .host => some (initHostNetwork maxSize)
    | .bridge => initBridgeNetwork maxSize cfg.agentIp handles

/-- A session has called `Get`; its sandbox runs; its completion was sent and the deferred calls
are left, when the broker may have received the completion. -/
inductive Phase
  | starting | running
  | finishing (received : Bool)
  deriving DecidableEq

structure Session where
  phase : Phase
  binding : NetworkBinding
  deriving DecidableEq

/-- `late` counts the completions that are received after the binding was returned. -/
structure Agent where
  pool : List NetworkBinding
  sessions : List Session := []
  late : Nat := 0
  panicked : Bool := false
  deriving DecidableEq

namespace Agent

def outstanding (g : Agent) : Nat :=
  g.sessions.countP (·.phase ≠ .finishing true) + g.late

def get (g : Agent) : Agent :=
  match g.pool.getLast? with
  | none => { g with panicked := true }
  | some b =>
    { g with pool := g.pool.dropLast, sessions := g.sessions ++ [⟨.starting, b⟩] }

def put (g : Agent) (i : Nat) (b : NetworkBinding) : Agent :=
  { g with pool := g.pool ++ [b], sessions := g.sessions.eraseIdx i }

def enter (g : Agent) (i : Nat) (x : Session) (phase : Phase) : Agent :=
  { g with sessions := g.sessions.set i { x with phase } }

end Agent

inductive Action
  | get
  | start (i : Nat) (succeeds : Bool)
  | complete (i : Nat)
  | receive (i : Nat)
  | put (i : Nat)
  | receiveLate
  deriving DecidableEq

/-- The broker starts a session only while fewer than `n` are outstanding. -/
def step (n : Nat) (g : Agent) : Action → Option Agent
  | .get => if g.outstanding < n then some g.get else none
  | .start i succeeds => g.sessions[i]?.bind fun x =>
    if x.phase = .starting then some (if succeeds then g.enter i x .running else g.put i x.binding)
    else none
  | .complete i => g.sessions[i]?.bind fun x =>
    if x.phase = .running then some (g.enter i x (.finishing false)) else none
  | .receive i => g.sessions[i]?.bind fun x =>
    if x.phase = .finishing false then some (g.enter i x (.finishing true)) else none
  | .put i => g.sessions[i]?.bind fun x =>
    match x.phase with
    | .finishing true => some (g.put i x.binding)
    | .finishing false => some { g.put i x.binding with late := g.late + 1 }
    | _ => none
  | .receiveLate => if 0 < g.late then some { g with late := g.late - 1 } else none

/-- When a session is started, all whose completion was received have returned their binding. -/
def Returned (g : Agent) : Action → Prop
  | .get => ∀ x ∈ g.sessions, x.phase ≠ .finishing true
  | _ => True

instance (g : Agent) (act : Action) : Decidable (Returned g act) := by
  induction act using Action.casesOn <;> unfold Returned <;> infer_instance

def Agent.Shared (n : Nat) (g : Agent) : Prop :=
  (g.pool ++ g.sessions.map (·.binding)).map (·.slot) |>.Perm (List.range' 1 n)

variable {n : Nat} {g t : Agent} {act : Action} {i : Nat} {x : Session}

lemma Agent.Shared.get (S : g.Shared n) : g.get.Shared n := by
  unfold Agent.get
  split
  · exact S
  · next b last =>
    obtain ⟨rest, pool⟩ := List.getLast?_eq_some_iff.mp last
    refine List.Perm.trans (.map _ ?_) S
    rw [pool, dropLast_concat, map_append, append_assoc]
    exact List.Perm.append_left rest perm_append_comm

lemma Agent.Shared.put (S : g.Shared n) (found : g.sessions[i]? = some x) :
    (g.put i x.binding).Shared n := by
  obtain ⟨bound, rfl⟩ := List.getElem?_eq_some_iff.mp found
  refine List.Perm.trans (.map _ ?_) S
  rw [Agent.put, append_assoc, singleton_append, ← map_cons]
  exact (getElem_cons_eraseIdx_perm bound).map _ |>.append_left _

lemma Agent.Shared.enter (S : g.Shared n) (found : g.sessions[i]? = some x) (phase : Phase) :
    (g.enter i x phase).Shared n := by
  obtain ⟨bound, rfl⟩ := List.getElem?_eq_some_iff.mp found
  have same : (g.enter i g.sessions[i] phase).sessions.map (·.binding) =
      g.sessions.map (·.binding) := by
    refine ext_getElem? fun j => ?_
    rw [Agent.enter, map_set, List.getElem?_set]
    split
    · next at_ => simp [← at_, bound]
    · rfl
  rw [Shared, same]
  exact S

lemma step_cases (h : step n g act = some t) : (act = .get ∧ g.outstanding < n ∧ t = g.get) ∨
    (∃ i x phase, g.sessions[i]? = some x ∧ t = g.enter i x phase) ∨
    (∃ i x late, g.sessions[i]? = some x ∧ t = { g.put i x.binding with late }) ∨
    ∃ late, t = { g with late } := by
  cases act with
  | get =>
    simp only [step, ite_none_right_eq_some, Option.some.injEq] at h
    exact .inl ⟨rfl, h.1, h.2.symm⟩
  | start i succeeds =>
    obtain ⟨x, found, taken⟩ := bind_eq_some_iff.mp h
    simp only [ite_none_right_eq_some, Option.some.injEq] at taken
    cases succeeds with
    | true => exact .inr (.inl ⟨i, x, _, found, taken.2.symm⟩)
    | false => exact .inr (.inr (.inl ⟨i, x, _, found, taken.2.symm⟩))
  | complete i | receive i =>
    obtain ⟨x, found, taken⟩ := bind_eq_some_iff.mp h
    simp only [ite_none_right_eq_some, Option.some.injEq] at taken
    exact .inr (.inl ⟨i, x, _, found, taken.2.symm⟩)
  | put i =>
    obtain ⟨x, found, taken⟩ := bind_eq_some_iff.mp h
    refine .inr (.inr (.inl ⟨i, x, ?_⟩))
    split at taken
    · exact ⟨_, found, (Option.some.inj taken).symm⟩
    · exact ⟨_, found, (Option.some.inj taken).symm⟩
    · cases taken
  | receiveLate =>
    simp only [step, ite_none_right_eq_some, Option.some.injEq] at h
    exact .inr (.inr (.inr ⟨_, h.2.symm⟩))

lemma panicked_get (S : g.Shared n) (free : g.outstanding < n) (returned : Returned g .get) :
    g.get.panicked = g.panicked := by
  have count : g.sessions.countP (·.phase ≠ .finishing true) = g.sessions.length :=
    countP_eq_length.mpr fun x mem => by simpa using returned x mem
  have total := S.length_eq
  rw [length_map, length_append, length_map, length_range'] at total
  rw [Agent.outstanding, count] at free
  unfold Agent.get
  split
  · next empty =>
    rw [List.getLast?_eq_none_iff.mp empty, length_nil] at total
    omega
  · rfl

lemma shared_step (S : g.Shared n ∧ g.panicked = false) (returned : Returned g act)
    (h : step n g act = some t) : t.Shared n ∧ t.panicked = false := by
  obtain ⟨S, calm⟩ := S
  rcases step_cases h with ⟨rfl, free, rfl⟩ | ⟨i, x, phase, found, rfl⟩ | ⟨i, x, late, found, rfl⟩ |
    ⟨late, rfl⟩
  · exact ⟨S.get, (panicked_get S free returned).trans calm⟩
  · exact ⟨S.enter found phase, calm⟩
  · exact ⟨S.put found, calm⟩
  · exact ⟨S, calm⟩

lemma slots_range (make : Nat → NetworkBinding) (own : ∀ i, (make i).slot = i) :
    ((List.range' 1 n).map make).map (·.slot) = List.range' 1 n := by
  rw [List.map_map]
  exact List.map_id'' own _

lemma slots_of_accepted {handles : Option (Nat → Int)} {pool : List NetworkBinding}
    (accepted : getNetworkDaemon n cfg handles = some pool)
    (mode : ∀ c ∈ cfg, c.networkMode ≠ .unspecified) : pool.map (·.slot) = List.range' 1 n := by
  unfold getNetworkDaemon at accepted
  split at accepted
  · cases accepted
    exact slots_range _ fun _ => rfl
  · next c =>
    split at accepted
    · next unspecified => exact absurd unspecified (mode c rfl)
    · cases accepted
      exact slots_range _ fun _ => rfl
    · simp only [initBridgeNetwork, Option.ite_none_left_eq_some] at accepted
      obtain ⟨-, maskSize, -, accepted⟩ := accepted.imp_right Option.bind_eq_some_iff.mp
      obtain ⟨handle, -, rfl⟩ := Option.map_eq_some_iff.mp
        (Option.ite_none_left_eq_some.mp accepted).2
      exact slots_range _ fun _ => rfl

/-- The pool is not empty when a session is started, and no two sessions have one binding. -/
theorem bindings_suffice {cfg : Option NetworkConfig} {handles : Option (Nat → Int)}
    {pool : List NetworkBinding} (accepted : getNetworkDaemon n cfg handles = some pool)
    (mode : ∀ c ∈ cfg, c.networkMode ≠ .unspecified) (h : Reachable (step n) Returned { pool } g) :
    g.panicked = false ∧ (g.sessions.map (·.binding.slot)).Nodup := by
  have start : ({ pool } : Agent).Shared n := by
    rw [Agent.Shared, List.map_nil, List.append_nil, slots_of_accepted accepted mode]
  have S := h.invariant (I := fun g => g.Shared n ∧ g.panicked = false) ⟨start, rfl⟩
    fun _ _ _ S returned taken => shared_step S returned taken
  refine ⟨S.2, ?_⟩
  have nodup := S.1.nodup_iff.mpr nodup_range'
  rw [List.map_append, List.map_map] at nodup
  exact nodup.of_append_right

theorem bindings_suffice_reused : ∃ g, Reachable (step 1) Returned { pool := initHostNetwork 1 } g ∧
    g.sessions.length = 1 ∧ g.panicked = false ∧ (g.sessions.map (·.binding.slot)).Nodup := by
  obtain ⟨g, reached, length⟩ := exists_of_run (step 1) Returned
    { pool := initHostNetwork 1 }
    [.get, .start 0 true, .complete 0, .put 0, .receiveLate, .get] (·.sessions.length = 1)
    (by decide)
  have accepted : getNetworkDaemon 1 none none = some (initHostNetwork 1) := rfl
  exact ⟨g, reached, length, bindings_suffice accepted nofun reached⟩

/-- The broker receives the completion before the binding is returned, and starts the next session.
A configuration without a network mode is accepted with an empty pool. -/
theorem bindings_exhausted :
    (∃ g, Reachable (step 1) Any { pool := initHostNetwork 1 } g ∧ g.panicked = true) ∧
    ∃ pool, getNetworkDaemon 1 (some { networkMode := .unspecified }) none = some pool ∧
      ∃ g, Reachable (step 1) Any { pool } g ∧ g.panicked = true := by
  constructor
  · exact exists_of_run (step 1) Any { pool := initHostNetwork 1 }
      [.get, .start 0 true, .complete 0, .receive 0, .get] (·.panicked = true) (by decide)
  · exact ⟨[], rfl, exists_of_run (step 1) Any { pool := [] } [.get]
      (·.panicked = true) (by decide)⟩

end Velda.Agentd
