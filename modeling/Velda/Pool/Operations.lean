import Velda.Pool.Workers

/-! The operations of an autoscaled pool. What the backend answers, which entry a
`range` over a map finds first, and the clock are inputs of an operation; `none` is an
operation that does not return. An operation also gives the channels on which it told
workers to shut down. -/
namespace Velda.Pool
open Lib

variable {χ : Type}

/-- The answers to the calls of `RequestScaleUp`, each with the time of the call, where `none` is
an error, and the workers that the loops over idle and pending workers find first. -/
structure Oracle where
  scaleUps : List (Time × Option String) := []
  picks : List String := []
  deriving DecidableEq

namespace AutoScaledPool

def clearAllocationErrorLocked (p : AutoScaledPool χ) : AutoScaledPool χ :=
  { p with lastAllocationErrorAt := none, nextScaleUpAllowedAt := none }

def markAllocationErrorLocked (p : AutoScaledPool χ) (now : Time) : AutoScaledPool χ :=
  { p with
    lastAllocationErrorAt := some now
    nextScaleUpAllowedAt := some (now + p.scaleUpErrorRetryDelay) }

def maybeResetAllocationErrorLocked (p : AutoScaledPool χ) (now : Time) : AutoScaledPool χ :=
  if p.lastAllocationErrorAt.isNone ∨ p.allocationErrorResetAfter ≤ 0 then p
  else
    match p.lastScaleUpAttemptAt with
    | none => p
    | some attempt =>
      if p.allocationErrorResetAfter ≤ now - attempt then p.clearAllocationErrorLocked else p

def addPending (p : AutoScaledPool χ) (name : String) (now : Time) : AutoScaledPool χ :=
  if name = "" then
    { p with
      pendingUnknownWorkers := p.pendingUnknownWorkers + 1
      idleSlots := p.idleSlots + p.defaultSlotsPerAgent }
  else (p.see name now).setWorkerStatusLocked name .pending p.defaultSlotsPerAgent

/-- The first loop of `maintainIdleWorkers`. -/
def scaleUp : List (Time × Option String) → AutoScaledPool χ → Option (AutoScaledPool χ)
  | calls, p =>
    if p.batch = false ∧ (p.idleSizeLocked < p.minIdle ∨ p.sizeLocked < p.minSize) ∧
        p.sizeLocked < p.maxSize then
      match calls with
      | [] => none
      | (now, answer) :: rest =>
        let p := p.maybeResetAllocationErrorLocked now
        if p.nextScaleUpAllowedAt.any (now < ·) then some p
        else
          let p := { p with lastScaleUpAttemptAt := some now }
          match answer with
          | none => some (p.markAllocationErrorLocked now)
          | some name => scaleUp rest (p.addPending name now)
    else some p

/-- The pool after `deleteOneWorkerLocked`, the channel it used, and whether it deleted a worker. -/
def deleteOneWorkerLocked (p : AutoScaledPool χ) (pick : String) :
    Option (AutoScaledPool χ × List χ × Bool) :=
  let pending := p.workersByStatus .pending
  let idle := (p.workersByStatus .idle).filter fun w =>
    ¬ p.idleSizeLocked - w.availableSlot < p.minIdle
  if (p.workersByStatus .idle = [] ∧ pending = []) ∨ p.sizeLocked ≤ p.minSize then
    some (p, [], false)
  else if pending ≠ [] then
    if pending.any (·.name = pick) then
      some (p.setWorkerStatusLocked pick .disconnected 0, [], true)
    else none
  else
    match idle.find? (·.name = pick) with
    | none => if idle = [] then some (p, [], false) else none
    | some w =>
      if pick = "" then some (p, [], false)
      else w.statusChan.map fun chan =>
        (p.setWorkerStatusLocked pick .notifyDeleting (-1), [chan], true)

/-- The second loop of `maintainIdleWorkers`. -/
def scaleDown : List String → AutoScaledPool χ → Option (AutoScaledPool χ × List χ)
  | picks, p =>
    if p.sizeLocked > p.minSize ∧ p.idleSizeLocked > p.maxIdle then
      match picks with
      | [] => none
      | pick :: rest =>
        match p.deleteOneWorkerLocked pick with
        | none => none
        | some (p, _, false) => some (p, [])
        | some (p, sent, true) =>
          (scaleDown rest { p with killingIdle := false }).map fun r => (r.1, sent ++ r.2)
    else some (p, [])

def canKillIdleWorkerLocked (p : AutoScaledPool χ) : Bool :=
  p.sizeLocked > p.minSize ∧ p.idleSizeLocked - p.defaultSlotsPerAgent ≥ p.minIdle ∧
    (p.workersByStatus .idle ≠ [] ∨ p.workersByStatus .pending ≠ [])

def maintainIdleWorkers (o : Oracle) (p : AutoScaledPool χ) :
    Option (AutoScaledPool χ × List χ) :=
  let p := if p.backend.isSome ∧ p.workersByStatus .unknown = [] then
    { p with readyForIdleMaintenance := true } else p
  if p.readyForIdleMaintenance = false ∨ p.backend = none ∨ p.done = true then some (p, [])
  else
    (scaleUp o.scaleUps p).bind fun p =>
      (scaleDown o.picks p).map fun r =>
        ({ r.1 with killingIdle := r.1.canKillIdleWorkerLocked }, r.2)

def meet (cur : BitVec 32) (now : Time) (p : AutoScaledPool χ) (name : String) :
    AutoScaledPool χ :=
  match p.workers.lookup name with
  | some _ => p.setVersion name cur
  | none =>
    if p.pendingUnknownWorkers > 0 then
      (p.setWorkerStatusLocked name .pending p.defaultSlotsPerAgent).claimUnknown.setVersion name cur
    else (p.setWorkerStatusLocked name .unknown 0).see name now

def vanished (p : AutoScaledPool χ) (cur : BitVec 32) : List String :=
  (p.workers.entries.filter fun w =>
    w.status ∈ nonActiveStatus ∧ w.version ≠ cur ∧ w.version ≠ cur - 1).map Worker.name

/-- The workers that were not seen for too long, as far as the backend deletes them. -/
def expired (p : AutoScaledPool χ) (now : Time) (deleted : String → Bool) : List String :=
  if p.killUnknownAfter > 0 then
    (p.workers.entries.filter fun w =>
      (w.status = .unknown ∨ w.status = .lost) ∧
        (p.lastKnownTime w.name).any (p.killUnknownAfter < now - ·) ∧ deleted w.name).map Worker.name
  else []

def reconnect (o : Oracle) (p : AutoScaledPool χ) (cur : BitVec 32) (now : Time)
    (listed : List String) (deleted : String → Bool) : Option (AutoScaledPool χ × List χ) :=
  let p := listed.foldl (meet cur now) p
  let p := (p.vanished cur).foldl removeWorkerLocked p
  let p := (p.expired now deleted).foldl removeWorkerLocked p
  p.maintainIdleWorkers o

def markLost (p : AutoScaledPool χ) (name : String) (now : Time) : AutoScaledPool χ :=
  let p := p.see name now
  match p.workerStatus name with
  | .none => p
  | .needsRestart => p.setWorkerStatusLocked name .pending (-1)
  | .deleting => p.setWorkerStatusLocked name .disconnected 0
  | _ => p.setWorkerStatusLocked name .lost 0

/-- The worker's channel and slots, as `NotifyAgentAvailable` writes them. -/
def setDetail (p : AutoScaledPool χ) (name : String) (chan : χ) (availableSlot : Int) :
    AutoScaledPool χ :=
  match p.workers.lookup name with
  | none => p
  | some w =>
    let next := { w with statusChan := some chan, availableSlot := availableSlot }
    { p with workers := p.workers.insert next }

def notifyAgentAvailable (p : AutoScaledPool χ) (name : String) (busy : Bool) (chan : χ)
    (availableSlot : Int) : AutoScaledPool χ :=
  let p := p.clearAllocationErrorLocked
  let old := p.workerStatus name
  let q := p.setWorkerStatusLocked name (if busy then .running else .idle) availableSlot
  let q := if old = .none ∧ q.backend ≠ none ∧ q.pendingUnknownWorkers > 0 then q.claimUnknown else q
  q.setDetail name chan availableSlot

def handleResourcePoolEvent (p : AutoScaledPool χ) (name : String) (now : Time) :
    AutoScaledPool χ :=
  let p := p.markAllocationErrorLocked now
  match p.workers.lookup name with
  | some _ => p.removeWorkerLocked name
  | none =>
    if p.pendingUnknownWorkers > 0 then p.claimUnknown else p

def requestBatch (p : AutoScaledPool χ) (count : Int) (now : Time) (nodes : List String) :
    AutoScaledPool χ :=
  nodes.foldl (fun p name => (p.see name now).setWorkerStatusLocked name .pending
    p.defaultSlotsPerAgent) { p with pendingSessions := p.pendingSessions + count }

end AutoScaledPool

structure AutoScaledPoolConfig where
  backend : Option Backend := none
  minIdle : Int := 0
  maxIdle : Int := 0
  minSize : Int := 0
  maxSize : Int := 0
  killUnknownAfter : Time := 0
  defaultSlotsPerAgent : Int := 0
  batch : Bool := false
  scaleUpErrorRetryDelay : Time := 0
  allocationErrorResetAfter : Time := 0
  deriving DecidableEq

namespace AutoScaledPoolConfig

def slots (c : AutoScaledPoolConfig) : Int :=
  if c.defaultSlotsPerAgent ≤ 0 then 1 else c.defaultSlotsPerAgent

/-- `defaultScaleUpErrorRetryDelay`, in seconds. -/
def retryDelay (c : AutoScaledPoolConfig) : Time :=
  if c.scaleUpErrorRetryDelay ≤ 0 then 60 else c.scaleUpErrorRetryDelay

def resetAfter (c : AutoScaledPoolConfig) : Time :=
  if c.allocationErrorResetAfter ≤ 0 then 30 + c.retryDelay else c.allocationErrorResetAfter

end AutoScaledPoolConfig

def AutoScaledPool.configure (p : AutoScaledPool χ) (c : AutoScaledPoolConfig) :
    AutoScaledPool χ :=
  { p with
    backend := c.backend
    minIdle := c.minIdle
    maxIdle := max c.maxIdle (c.minIdle + c.slots - 1)
    minSize := c.minSize
    maxSize := c.maxSize
    batch := c.batch
    killUnknownAfter := c.killUnknownAfter
    killingIdle := false
    defaultSlotsPerAgent := c.slots
    scaleUpErrorRetryDelay := c.retryDelay
    allocationErrorResetAfter := c.resetAfter }

inductive Op (χ : Type)
  | requestWorker (o : Oracle)
  | requestCancelled (o : Oracle)
  | markBusy (name : String) (remainingSlot : Int) (o : Oracle)
  | markIdle (name : String) (remainingSlot : Int) (o : Oracle)
  | markLost (name : String) (now : Time) (o : Oracle)
  | markDeleting (name : String) (o : Oracle)
  | notifyAgentAvailable (name : String) (busy : Bool) (chan : χ) (availableSlot : Int) (o : Oracle)
  | requestBatch (count : Int) (now : Time) (nodes : Option (List String))
  | beginReconnect
  | reconnect (i : Nat) (now : Time) (listed : List String) (deleted : String → Bool) (o : Oracle)
  | resourcePoolEvent (name : String) (now : Time) (o : Oracle)
  | deleteOneIdleWorker (pick : String) (o : Oracle)
  | retryScaleUp (o : Oracle)
  | readyForIdleMaintenance (o : Oracle)
  | updateConfig (c : AutoScaledPoolConfig) (o : Oracle)
  | shutdown

namespace AutoScaledPool

/-- One operation, with the channels it sends a shutdown request on. -/
def apply (p : AutoScaledPool χ) : Op χ → Option (AutoScaledPool χ × List χ)
  | .requestWorker o => { p with pendingSessions := p.pendingSessions + 1 }.maintainIdleWorkers o
  | .requestCancelled o => { p with pendingSessions := p.pendingSessions - 1 }.maintainIdleWorkers o
  | .markBusy name slots o =>
    ({ p with pendingSessions := p.pendingSessions - 1 }.setWorkerStatusLocked name .running
      slots).maintainIdleWorkers o
  | .markIdle name slots o =>
    let q := p.setWorkerStatusLocked name .idle slots
    if p.workerStatus name = .running then q.maintainIdleWorkers o else some (q, [])
  | .markLost name now o => (p.markLost name now).maintainIdleWorkers o
  | .markDeleting name o =>
    -- a pool without a backend panics when it asks the backend
    if p.backend = none then none
    else (p.setWorkerStatusLocked name .deleting 0).maintainIdleWorkers o
  | .notifyAgentAvailable name busy chan slots o =>
    (p.notifyAgentAvailable name busy chan slots).maintainIdleWorkers o
  | .requestBatch count now nodes =>
    if p.batch ∧ p.backend.any Backend.batched then
      some ((nodes.map (p.requestBatch count now)).getD p, [])
    else some (p, [])
  | .beginReconnect =>
    match p.backend with
    | none => some (p, [])
    | some b => some ({ p with
        currentSyncVersion := p.currentSyncVersion + 1
        syncs := p.syncs ++ [(b, p.currentSyncVersion + 1)] }, [])
  | .reconnect i now listed deleted o =>
    match p.syncs[i]? with
    | none => none
    | some (b, cur) =>
      let q := { p with syncs := p.syncs.eraseIdx i }
      if p.backend = some b then q.reconnect o cur now listed deleted else some (q, [])
  | .resourcePoolEvent name now o => (p.handleResourcePoolEvent name now).maintainIdleWorkers o
  | .deleteOneIdleWorker pick o =>
    let p := { p with killingIdle := false }
    if p.canKillIdleWorkerLocked then
      match p.deleteOneWorkerLocked pick with
      | none => none
      | some (q, _, false) => some (q, [])
      | some (q, sent, true) => (q.maintainIdleWorkers o).map fun r => (r.1, sent ++ r.2)
    else some (p, [])
  | .retryScaleUp o => p.maintainIdleWorkers o
  | .readyForIdleMaintenance o =>
    if p.readyForIdleMaintenance then some (p, [])
    else { p with readyForIdleMaintenance := true }.maintainIdleWorkers o
  | .updateConfig c o =>
    if p.backend = c.backend then (p.configure c).maintainIdleWorkers o
    else some (p.configure c, [])
  | .shutdown => some ({ p with done := true }, [])

def step (p : AutoScaledPool χ) (op : Op χ) : Option (AutoScaledPool χ) := (p.apply op).map (·.1)

end AutoScaledPool

end Velda.Pool
