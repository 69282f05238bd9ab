import Velda.SandboxFs.Responses
import Velda.Lib.Run

/-! The connection of the client and the worker that writes requests to it. Connections are
numbered as they are dialled; calling a method of a connection that is not there panics. -/
namespace Velda.SandboxFs
open Lib List

def ioError : BitVec 32 := 5
def connectionRefused : BitVec 32 := 111

/-- A request, with the connection it is written to and the connection in whose table it is. -/
structure RequestOp where
  conn : Option Nat := none
  table : Option Nat := none
  executing : Bool := false
  response : Option (BitVec 32) := none

inductive Failure
  | refused
  | panic
  | loops

/-- `pending` is the connection whose reader uses the table of the client. -/
structure DirectFSClient where
  conn : Option Nat
  pending : Nat
  reading : Nat → Bool
  ops : List RequestOp := []
  failure : Option Failure := none

abbrev Call := ExceptT Failure (StateM DirectFSClient)

namespace DirectFSClient
variable (connect : Call Unit) (rounds : Nat)

def close : Option Nat → Call Unit
  | some _ => pure ()
  | none => throw .panic

def reconnect : Call Unit := do
  if (← get).conn.isSome then return
  close (← get).conn
  connect

/-- The loop of a request without connection, for a number of rounds. -/
def acquire : Nat → Call Nat
  | 0 => throw .loops
  | n + 1 => do
    match (← get).conn with
    | some c => return c
    | none =>
      reconnect connect
      acquire n

def add (s : DirectFSClient) (op : RequestOp) : DirectFSClient := { s with ops := s.ops ++ [op] }

def executeRequestOp (s : DirectFSClient) (serialized : Bool) : DirectFSClient :=
  if serialized then
    match (acquire connect (rounds + 1)).run.run s with
    | (.ok c, t) => t.add { conn := some c, table := some t.pending, executing := true }
    | (.error .refused, t) => t.add { response := some connectionRefused }
    | (.error e, t) => { t with failure := some e }
  else s.add { response := some ioError }

def written (s : DirectFSClient) (i : Nat) (op : RequestOp) (succeeds : Bool) : DirectFSClient :=
  if succeeds then { s with ops := s.ops.set i { op with executing := false } }
  else
    { s with
      conn := if s.conn = op.conn then none else s.conn
      ops := s.ops.set i
        { op with
          table := if op.table = some s.pending then none else op.table
          executing := false
          response := some ioError } }

/-- The reader of `c` completes what is in its table, and nothing else happens. -/
def readerExit (s : DirectFSClient) (c : Nat) : DirectFSClient :=
  { s with
    reading := Function.update s.reading c false
    ops := s.ops.map fun op =>
      if op.table = some c then { op with response := some connectionReset } else op }

inductive Action
  | execute (serialized : Bool)
  | write (i : Nat) (succeeds : Bool)
  | respond (i : Nat) (errno : BitVec 32)
  | readerExit (c : Nat)

/-- One worker executes the requests, one after the other. -/
def step (s : DirectFSClient) : Action → Option DirectFSClient
  | .execute serialized =>
    if s.failure.isSome || s.ops.any (·.executing) then none
    else some (s.executeRequestOp connect rounds serialized)
  | .write i succeeds => s.ops[i]?.bind fun op =>
    if op.executing then some (s.written i op succeeds) else none
  | .respond i errno => s.ops[i]?.bind fun op =>
    if op.table.any s.reading then
      some { s with ops := s.ops.set i { op with table := none, response := some errno } }
    else none
  | .readerExit c => if s.reading c then some (s.readerExit c) else none

def started : DirectFSClient where
  conn := some 0
  pending := 0
  reading c := c == 0

/-- The request is completed, or is in the table of the connection that it goes to, whose reader
is there once it is written. -/
def Served (s : DirectFSClient) (op : RequestOp) : Prop :=
  op.response.isSome ∨ ∃ c, op.conn = some c ∧ op.table = some c ∧ (op.executing ∨ s.reading c)

/-- There is a connection, and a write to one that has no reader fails. -/
def heeded (s : DirectFSClient) : Action → Bool
  | .execute serialized => !serialized || s.conn.isSome
  | .write i true => s.ops[i]?.all fun op => op.response.isSome || op.conn.all s.reading
  | _ => true

structure Held (s : DirectFSClient) : Prop where
  failure : s.failure = none
  conn : ∀ c ∈ s.conn, c = s.pending
  ops : ∀ op ∈ s.ops, s.Served op

variable {connect rounds} {s t : DirectFSClient} {op : RequestOp}

lemma acquire_conn (found : s.conn = some c) :
    (acquire connect (rounds + 1)).run.run s = (.ok c, s) := by
  show (match s.conn with | some c => _ | none => _ : Call Nat).run.run s = _
  rw [found]
  rfl

namespace Held

lemma add (H : s.Held) (new : s.Served op) : (s.add op).Held :=
  { H with
    ops := fun o mem => (mem_append.mp mem).elim (H.ops o) fun last => by
      rw [mem_singleton.mp last]
      exact new }

lemma set (H : s.Held) (i : Nat) (known : ∀ c ∈ left, c = s.pending) (new : s.Served op) :
    Held { s with conn := left, ops := s.ops.set i op } :=
  { H with
    conn := known
    ops := fun o mem => (mem_or_eq_of_mem_set mem).elim (H.ops o) fun same => by
      rw [same]
      exact new }

lemma execute (H : s.Held) (heed : s.heeded (.execute serialized)) :
    (s.executeRequestOp connect rounds serialized).Held := by
  cases serialized with
  | false => exact H.add (.inl rfl)
  | true =>
    obtain ⟨c, found⟩ := Option.isSome_iff_exists.mp heed
    rw [executeRequestOp, if_pos rfl, acquire_conn found]
    refine H.add (.inr ⟨c, rfl, ?_, .inl rfl⟩)
    rw [H.conn c found]

lemma write {succeeds : Bool} (H : s.Held) (heed : s.heeded (.write i succeeds))
    (found : s.ops[i]? = some op) : (s.written i op succeeds).Held := by
  cases succeeds with
  | true =>
    refine H.set i H.conn ?_
    rcases H.ops op (mem_of_getElem? found) with done | ⟨c, conn, table, -⟩
    · exact .inl done
    · exact .imp_right (fun reads => ⟨c, conn, table, .inr reads⟩)
        (by simpa [heeded, found, conn] using heed)
  | false =>
    refine H.set i (fun c mem => ?_) (.inl rfl)
    split at mem
    · cases mem
    · exact H.conn c mem

lemma exit (H : s.Held) (c : Nat) : (s.readerExit c).Held where
  failure := H.failure
  conn := H.conn
  ops := by
    intro o mem
    obtain ⟨op, known, rfl⟩ := mem_map.mp mem
    split
    · exact .inl rfl
    · next other =>
      refine (H.ops op known).imp_right ?_
      rintro ⟨d, conn, table, running⟩
      have ne : d ≠ c := fun same => other (same ▸ table)
      exact ⟨d, conn, table, by simpa [readerExit, ne] using running⟩

lemma step (H : s.Held) (heed : s.heeded act) (taken : step connect rounds s act = some t) :
    t.Held := by
  cases act with
  | execute serialized =>
    obtain ⟨-, ⟨⟩⟩ := Option.ite_none_left_eq_some.mp taken
    exact H.execute heed
  | write i succeeds =>
    obtain ⟨op, found, rest⟩ := Option.bind_eq_some_iff.mp taken
    obtain ⟨-, ⟨⟩⟩ := Option.ite_none_right_eq_some.mp rest
    exact H.write heed found
  | respond i errno =>
    obtain ⟨op, -, rest⟩ := Option.bind_eq_some_iff.mp taken
    obtain ⟨-, ⟨⟩⟩ := Option.ite_none_right_eq_some.mp rest
    exact H.set i H.conn (.inl rfl)
  | readerExit c =>
    obtain ⟨-, ⟨⟩⟩ := Option.ite_none_right_eq_some.mp taken
    exact H.exit c

end Held

/-- A call that dials a new connection and mounts over it. -/
def dialled : Call Unit := modify fun s =>
  { s with
    conn := some (s.pending + 1)
    pending := s.pending + 1
    reading := Function.update s.reading (s.pending + 1) true }

end DirectFSClient

end Velda.SandboxFs
