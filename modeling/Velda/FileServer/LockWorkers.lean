import Velda.Lib.Run

/-! The workers of the file server and the lock calls in which they wait. A lock call that has
to wait keeps its worker; the locks themselves are the kernel's. -/
namespace Velda.FileServer
open Lib

/-- The locks of the kernel, for open files: `lock` gives nothing when the caller has to wait. -/
structure LockTable (Table Lock : Type) where
  lock : Table → Nat → Lock → Option Table
  unlock : Table → Nat → Lock → Table
  close : Table → Nat → Table

inductive LockRequest (Lock : Type)
  | setlk (fd : Nat) (lk : Lock)
  | setlkw (fd : Nat) (lk : Lock)
  | unlock (fd : Nat) (lk : Lock)
  | releaseFd (fd : Nat)
  | other

structure Workers (Table Lock : Type) where
  table : Table
  reqQueue : List (LockRequest Lock) := []
  waiting : List (Nat × Lock) := []

namespace Workers
variable {Table Lock : Type} (k : LockTable Table Lock) (numWorkers : Nat)

def released (table : Table) : LockRequest Lock → Option Table
  | .unlock fd lk => some (k.unlock table fd lk)
  | .releaseFd fd => some (k.close table fd)
  | _ => none

def handleRequest (s : Workers Table Lock) : LockRequest Lock → Workers Table Lock
  | .setlk fd lk => { s with table := (k.lock s.table fd lk).getD s.table }
  | .setlkw fd lk =>
    match k.lock s.table fd lk with
    | some table => { s with table }
    | none => { s with waiting := (fd, lk) :: s.waiting }
  | r => { s with table := (released k s.table r).getD s.table }

inductive Action (Lock : Type)
  | receive (r : LockRequest Lock)
  | handle
  | wake (i : Nat)
  /-- A connection ends, and its files are closed. -/
  | hangUp (fd : Nat)

def step (s : Workers Table Lock) : Action Lock → Option (Workers Table Lock)
  | .receive r => some { s with reqQueue := s.reqQueue ++ [r] }
  | .handle =>
    match s.reqQueue with
    | r :: reqQueue =>
      if s.waiting.length < numWorkers then some ({ s with reqQueue }.handleRequest k r) else none
    | [] => none
  | .wake i => s.waiting[i]?.bind fun call =>
    (k.lock s.table call.1 call.2).map fun table =>
      { s with table, waiting := s.waiting.eraseIdx i }
  | .hangUp fd => some { s with table := k.close s.table fd }

/-- All workers wait for locks, one of which a request in the queue would release. -/
def Stuck (s : Workers Table Lock) : Prop :=
  s.waiting.length = numWorkers ∧ ∃ r ∈ s.reqQueue, ∃ table ∈ released k s.table r,
    ∃ call ∈ s.waiting, (k.lock table call.1 call.2).isSome

/-- A lock call waits only while another worker is left. -/
def spare (s : Workers Table Lock) : Action Lock → Bool
  | .handle =>
    match s.reqQueue with
    | .setlkw fd lk :: _ =>
      (k.lock s.table fd lk).isSome || s.waiting.length + 1 < numWorkers
    | _ => true
  | _ => true

variable {k numWorkers} {s t : Workers Table Lock} {table : Table}

lemma waiting_of_step (few : s.waiting = [] ∨ s.waiting.length < numWorkers)
    (spared : spare k numWorkers s act) (taken : step k numWorkers s act = some t) :
    t.waiting = [] ∨ t.waiting.length < numWorkers := by
  cases act with
  | receive r | hangUp fd =>
    cases taken
    exact few
  | wake i =>
    obtain ⟨call, -, woken⟩ := Option.bind_eq_some_iff.mp taken
    obtain ⟨table, -, rfl⟩ := Option.map_eq_some_iff.mp woken
    have fewer := s.waiting.length_eraseIdx_le i
    refine few.imp (fun none => by simp [none]) fun less => fewer.trans_lt less
  | handle =>
    simp only [step] at taken
    split at taken
    · next r rest queue =>
      split at taken <;> cases taken
      cases r with
      | setlkw fd lk =>
        simp only [handleRequest]
        split
        · exact few
        · next waits => exact .inr (by simpa [spare, queue, waits] using spared)
      | _ => exact few
    · cases taken

/-- A file that is locked as a whole, and by one open file at a time. -/
def exclusive : LockTable (Option Nat) Unit where
  lock holder fd _ := if holder = none ∨ holder = some fd then some (some fd) else none
  unlock holder fd _ := if holder = some fd then none else holder
  close holder fd := if holder = some fd then none else holder

def contended : List (Action Unit) :=
  [.receive (.setlkw 1 ()), .handle, .receive (.setlkw 2 ()), .handle, .receive (.unlock 1 ())]

end Workers

end Velda.FileServer
