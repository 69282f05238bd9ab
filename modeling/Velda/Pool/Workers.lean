import Velda.Lib.Keyed

/-! The workers of an autoscaled pool, `pkg/broker/autoscaler.go`. A worker stands once
in the pool, under its name; the maps `workerStatus`, `workerDetail` and
`workersByStatus` of the source are the fields of this one entry. The channel on which
a worker is told to shut down is of any type. -/
namespace Velda.Pool
open Lib

abbrev Time := Int

/-- `none` is what a lookup of an unknown worker gives. -/
inductive WorkerStatusCode
  | none | pending | running | idle | lost | notifyDeleting | deleting | disconnected
  | needsRestart | unknown
  deriving DecidableEq

def nonActiveStatus : List WorkerStatusCode := [.pending, .unknown, .lost, .disconnected]

/-- `version` is the value of the worker's entry in `workersByStatus`. -/
structure Worker (χ : Type) where
  name : String
  status : WorkerStatusCode
  statusChan : Option χ
  availableSlot : Int
  version : BitVec 32
  deriving DecidableEq

structure Backend where
  id : Nat
  batched : Bool
  deriving DecidableEq

/-- `killingIdle` says that the timer of `deleteOneIdleWorker` runs; `syncs` are the calls of
`Reconnect` that wait for the list of workers. -/
structure AutoScaledPool (χ : Type) where
  backend : Option Backend := none
  minIdle : Int := 0
  maxIdle : Int := 0
  minSize : Int := 0
  maxSize : Int := 0
  killUnknownAfter : Time := 0
  defaultSlotsPerAgent : Int := 0
  batch : Bool := false
  currentSyncVersion : BitVec 32 := 0
  syncs : List (Backend × BitVec 32) := []
  pendingSessions : Int := 0
  idleSlots : Int := 0
  workers : Keyed (@Worker.name χ) := .empty
  pendingUnknownWorkers : Int := 0
  lastKnownTime : String → Option Time := fun _ => none
  killingIdle : Bool := false
  readyForIdleMaintenance : Bool := false
  done : Bool := false
  scaleUpErrorRetryDelay : Time := 0
  allocationErrorResetAfter : Time := 0
  nextScaleUpAllowedAt : Option Time := none
  lastScaleUpAttemptAt : Option Time := none
  lastAllocationErrorAt : Option Time := none

variable {χ : Type}

namespace AutoScaledPool

def workerStatus (p : AutoScaledPool χ) (name : String) : WorkerStatusCode :=
  ((p.workers.lookup name).map Worker.status).getD .none

def workersByStatus (p : AutoScaledPool χ) (status : WorkerStatusCode) : List (Worker χ) :=
  p.workers.entries.filter (·.status = status)

def see (p : AutoScaledPool χ) (name : String) (now : Time) : AutoScaledPool χ :=
  { p with lastKnownTime := fun n => if n = name then some now else p.lastKnownTime n }

/-- The entry that `setWorkerStatusLocked` writes: a negative number keeps the slots. -/
def nextWorker (p : AutoScaledPool χ) (name : String) (status : WorkerStatusCode)
    (newIdleSlots : Int) : Worker χ where
  name := name
  status := status
  statusChan := (p.workers.lookup name).bind Worker.statusChan
  availableSlot :=
    if newIdleSlots < 0 then ((p.workers.lookup name).map Worker.availableSlot).getD 0
    else newIdleSlots
  version := p.currentSyncVersion

def setWorkerStatusLocked (p : AutoScaledPool χ) (name : String) (status : WorkerStatusCode)
    (newIdleSlots : Int) : AutoScaledPool χ :=
  let current := p.workerStatus name
  let next := p.nextWorker name status newIdleSlots
  let old := ((p.workers.lookup name).map Worker.availableSlot).getD 0
  { p with
    lastKnownTime := fun n =>
      if n = name ∧ current ≠ status ∧ (current = .unknown ∨ current = .pending ∨ current = .lost)
      then none else p.lastKnownTime n
    workers := p.workers.insert next
    idleSlots := p.idleSlots +
      ((if status = .notifyDeleting then 0 else next.availableSlot) -
        if current = .notifyDeleting then 0 else old) }

def removeWorkerLocked (p : AutoScaledPool χ) (name : String) : AutoScaledPool χ :=
  { p with
    lastKnownTime := fun n => if n = name then none else p.lastKnownTime n
    workers := p.workers.erase name
    idleSlots := p.idleSlots - ((p.workers.lookup name).map Worker.availableSlot).getD 0 }

def setVersion (p : AutoScaledPool χ) (name : String) (version : BitVec 32) : AutoScaledPool χ :=
  match p.workers.lookup name with
  | none => p
  | some w => { p with workers := p.workers.insert { w with version := version } }

def claimUnknown (p : AutoScaledPool χ) : AutoScaledPool χ :=
  { p with
    pendingUnknownWorkers := p.pendingUnknownWorkers - 1
    idleSlots := p.idleSlots - p.defaultSlotsPerAgent }

def sizeLocked (p : AutoScaledPool χ) : Int :=
  (p.workersByStatus .idle).length + (p.workersByStatus .running).length +
    (p.workersByStatus .pending).length + (p.workersByStatus .unknown).length +
    p.pendingUnknownWorkers

def idleSizeLocked (p : AutoScaledPool χ) : Int := p.idleSlots - p.pendingSessions

end AutoScaledPool

end Velda.Pool
