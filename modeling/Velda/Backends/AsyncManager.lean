import Velda.Lib.Run
import Velda.Lib.Keyed

/-! The manager that makes a backend asynchronous, `pkg/broker/backends/async_manager.go`,
with the provider behind it. A call under the lock is one step; a goroutine stands in the
state with what it will do next, and takes one step for each call of the backend and for
each section under the lock. Calls of the backend succeed. What the backend keeps about a
worker besides its state is left out. -/
namespace Velda.Backends
open Lib

variable {ν : Type} [DecidableEq ν]

/-- What a goroutine of `RequestScaleUp` has done: nothing, the call of the backend, the entry in
`activeWorkers`. -/
inductive CreateStage
  | calling | called | cached
  deriving DecidableEq

/-- `resume` distinguishes `ResumeWorker` from `CreateWorker`; `op` is the channel that is closed
in the end. -/
structure Creator (ν : Type) where
  op : Nat
  name : ν
  resume : Bool
  stage : CreateStage
  deriving DecidableEq

/-- A goroutine of `RequestDelete` waits for the creation, has found the worker in
`activeWorkers` or not, and has called the backend. -/
inductive DeleteStage
  | waiting | found | missing | called
  deriving DecidableEq

structure Deleter (ν : Type) where
  op : Nat
  name : ν
  shouldSuspend : Bool
  creatingOp : Option Nat
  stage : DeleteStage
  deriving DecidableEq

structure Remote (ν : Type) where
  active : Finset ν
  suspended : Finset ν
  apart : ∀ name ∈ active, name ∉ suspended
  deriving DecidableEq

namespace Remote

def empty : Remote ν := ⟨∅, ∅, fun _ mem => absurd mem (Finset.notMem_empty _)⟩

/-- `CreateWorker` and `ResumeWorker`. -/
def start (r : Remote ν) (name : ν) : Remote ν where
  active := insert name r.active
  suspended := r.suspended.erase name
  apart := by
    intro m mem
    have := r.apart m
    grind

def suspendWorker (r : Remote ν) (name : ν) : Remote ν where
  active := r.active.erase name
  suspended := insert name r.suspended
  apart := by
    intro m mem
    have := r.apart m
    grind

def deleteWorker (r : Remote ν) (name : ν) : Remote ν where
  active := r.active.erase name
  suspended := r.suspended.erase name
  apart := by
    intro m mem
    have := r.apart m
    grind

end Remote

/-- A call of `ListWorkers`: the names it has put in the result and in `seen`, and the answer of
`ListRemoteWorkers` once it has it. -/
structure Lister (ν : Type) where
  op : Nat
  res : Finset ν
  seen : Finset ν
  remoteWorkers : Option (Remote ν)
  deriving DecidableEq

/-- The maps of the manager, the provider, the goroutines and calls that run, and the results of
`ListWorkers`. The last three fields record the calls: the workers handed out and not
requested to be deleted since, those a request decided to suspend, and those with a request
to delete that have not been suspended or deleted since they were started. -/
structure Manager (ν : Type) where
  resumable : Bool
  maxSuspended : Nat
  activeWorkers : Finset ν := ∅
  suspendedWorkers : Finset ν := ∅
  creatingWorkers : Keyed (Prod.fst : ν × Nat → ν) := .empty
  terminatingWorkers : Finset ν := ∅
  suspendingWorkers : Finset ν := ∅
  resumingWorkers : Finset ν := ∅
  remote : Remote ν
  creators : Finset (Creator ν) := ∅
  deleters : Finset (Deleter ν) := ∅
  listers : Finset (Lister ν) := ∅
  listed : List (Finset ν) := []
  nextOp : Nat := 0
  held : Finset ν := ∅
  caused : Finset ν := ∅
  owed : Finset ν := ∅

namespace Manager

variable (s : Manager ν)

def launch (name : ν) (resume : Bool) : Manager ν :=
  { s with
    creatingWorkers := s.creatingWorkers.insert (name, s.nextOp)
    creators := insert ⟨s.nextOp, name, resume, .calling⟩ s.creators
    nextOp := s.nextOp + 1
    held := insert name s.held
    caused := s.caused.erase name }

/-- Which suspended worker is taken is the choice of the map's iteration. The name of a new worker
is the backend's, which gives no name that the provider has a worker of. -/
def requestScaleUp (name : ν) : Option (Manager ν) :=
  if s.resumable = true ∧ s.suspendedWorkers.Nonempty then
    if name ∈ s.suspendedWorkers then
      some ({ s with
        suspendedWorkers := s.suspendedWorkers.erase name
        resumingWorkers := insert name s.resumingWorkers }.launch name true)
    else none
  else if s.creatingWorkers.lookup name = none ∧ name ∉ s.activeWorkers ∧
      name ∉ s.suspendedWorkers ∧ name ∉ s.remote.active ∧ name ∉ s.remote.suspended then
    some (s.launch name false)
  else none

def create (c : Creator ν) : Option (Manager ν) :=
  if c ∈ s.creators then
    match c.stage with
    | .calling => some { s with
        remote := s.remote.start c.name
        creators := insert { c with stage := .called } (s.creators.erase c) }
    | .called => some { s with
        activeWorkers := insert c.name s.activeWorkers
        creators := insert { c with stage := .cached } (s.creators.erase c) }
    | .cached => some { s with
        creatingWorkers := s.creatingWorkers.erase c.name
        resumingWorkers :=
          if c.resume then s.resumingWorkers.erase c.name else s.resumingWorkers
        creators := s.creators.erase c }
  else none

def shouldSuspend : Bool :=
  s.resumable && decide (0 < s.maxSuspended) &&
    decide (s.suspendedWorkers.card + s.suspendingWorkers.card < s.maxSuspended)

def Started (name : ν) : Prop := (∃ c ∈ s.creators, c.name = name) ∨ name ∈ s.remote.active

instance (name : ν) : Decidable (s.Started name) :=
  inferInstanceAs (Decidable (_ ∨ _))

def requestDelete (name : ν) : Manager ν :=
  { s with
    suspendingWorkers :=
      if s.shouldSuspend then insert name s.suspendingWorkers else s.suspendingWorkers
    terminatingWorkers :=
      if s.shouldSuspend then s.terminatingWorkers else insert name s.terminatingWorkers
    deleters := insert ⟨s.nextOp, name, s.shouldSuspend,
      (s.creatingWorkers.lookup name).map (·.2), .waiting⟩ s.deleters
    nextOp := s.nextOp + 1
    held := s.held.erase name
    caused := if s.shouldSuspend then insert name s.caused else s.caused
    owed := if s.Started name then insert name s.owed else s.owed }

/-- A channel is closed when its goroutine has ended. -/
def Closed (op : Option Nat) : Prop := ∀ c ∈ s.creators, op ≠ some c.op

instance (op : Option Nat) : Decidable (s.Closed op) :=
  inferInstanceAs (Decidable (∀ c ∈ s.creators, _))

def delete (d : Deleter ν) : Option (Manager ν) :=
  if d ∈ s.deleters then
    match d.stage with
    | .waiting =>
      if s.Closed d.creatingOp then some { s with
        deleters := insert
          { d with stage := if d.name ∈ s.activeWorkers then .found else .missing }
          (s.deleters.erase d) }
      else none
    | .missing => some { s with
        suspendingWorkers :=
          if d.shouldSuspend then s.suspendingWorkers.erase d.name else s.suspendingWorkers
        terminatingWorkers :=
          if d.shouldSuspend then s.terminatingWorkers else s.terminatingWorkers.erase d.name
        deleters := s.deleters.erase d }
    | .found => some { s with
        remote :=
          if d.shouldSuspend then s.remote.suspendWorker d.name
          else s.remote.deleteWorker d.name
        deleters := insert { d with stage := .called } (s.deleters.erase d)
        owed := if d.name ∈ s.remote.active then s.owed.erase d.name else s.owed }
    | .called => some { s with
        activeWorkers := s.activeWorkers.erase d.name
        suspendingWorkers :=
          if d.shouldSuspend then s.suspendingWorkers.erase d.name else s.suspendingWorkers
        suspendedWorkers :=
          if d.shouldSuspend then insert d.name s.suspendedWorkers else s.suspendedWorkers
        terminatingWorkers :=
          if d.shouldSuspend then s.terminatingWorkers else s.terminatingWorkers.erase d.name
        deleters := s.deleters.erase d }
  else none

def listWorkers : Manager ν :=
  let creating := (s.creatingWorkers.entries.map (·.1)).toFinset
  { s with
    listers := insert ⟨s.nextOp, creating,
      creating ∪ s.terminatingWorkers ∪ s.suspendingWorkers, none⟩ s.listers
    nextOp := s.nextOp + 1 }

/-- The instant at which the provider reads its state for `ListRemoteWorkers`. -/
def listRemoteWorkers (l : Lister ν) : Option (Manager ν) :=
  if l ∈ s.listers ∧ l.remoteWorkers = none then
    some { s with
      listers := insert { l with remoteWorkers := some s.remote } (s.listers.erase l) }
  else none

def rebuild (l : Lister ν) : Option (Manager ν) :=
  if l ∈ s.listers then
    l.remoteWorkers.map fun r =>
      let suspended := (s.suspendedWorkers ∪ (r.suspended \ s.resumingWorkers)) \ r.active
      { s with
        activeWorkers := r.active
        suspendedWorkers := suspended.filter (· ∈ l.seen ∪ r.active ∪ r.suspended)
        listers := s.listers.erase l
        listed := s.listed ++ [l.res ∪ (r.active \ l.seen)] }
  else none

end Manager

inductive Action (ν : Type)
  | requestScaleUp (name : ν)
  | create (c : Creator ν)
  | requestDelete (name : ν)
  | delete (d : Deleter ν)
  | listWorkers
  | listRemoteWorkers (l : Lister ν)
  | rebuild (l : Lister ν)

def step (s : Manager ν) : Action ν → Option (Manager ν)
  | .requestScaleUp name => s.requestScaleUp name
  | .create c => s.create c
  | .requestDelete name => some (s.requestDelete name)
  | .delete d => s.delete d
  | .listWorkers => some s.listWorkers
  | .listRemoteWorkers l => s.listRemoteWorkers l
  | .rebuild l => s.rebuild l

/-- `MakeAsync` and `MakeAsyncResumable`, over a provider that may have workers already. -/
def makeAsyncResumable (resumable : Bool) (maxSuspended : Nat) (remote : Remote ν) : Manager ν :=
  { resumable, maxSuspended, remote }

end Velda.Backends
