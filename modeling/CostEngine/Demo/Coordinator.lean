import CostEngine.Relational.Table

/-! # `demo-session.coordinator.ts`

The gate in front of the operations of a demo session. Every method runs without an `await`
in it, so each is one step; between the steps an operation waits for promises, which are
modelled by the operations whose completion they stand for. Objects that are compared by
identity (queues, reservations, operations) are numbered in the order they are created. -/

namespace CostEngine

open Relational (Table)

/-! ## Errors of the demo -/

inductive DemoError where
  | sessionUnavailable
  | sessionQueueFull
  | resetConflict
  | resetOutcomeUnknown
  | resetFailed
  | executorCapacityReached
  | invalidResetReservation
  | other (message : String)
  deriving DecidableEq

/-- `code`, for a `DemoSessionError`. -/
def DemoError.code? : DemoError → Option String
  | .sessionUnavailable => some "DEMO_SESSION_UNAVAILABLE"
  | .sessionQueueFull => some "DEMO_SESSION_QUEUE_FULL"
  | .resetConflict => some "RESET_CONFLICT"
  | .resetOutcomeUnknown => some "DEMO_RESET_OUTCOME_UNKNOWN"
  | .resetFailed => some "DEMO_RESET_FAILED"
  | .executorCapacityReached => some "DEMO_EXECUTOR_CAPACITY_REACHED"
  | .invalidResetReservation | .other _ => none

/-- The columns of the session that its context carries. -/
structure AuthenticatedDemoSession where
  sessionId : String
  companyCode : String
  deriving DecidableEq

/-! ## Data -/

/-- `tail` is the last exclusive operation that was admitted, or a promise that is settled. -/
structure Queue where
  tail : Option Nat
  size : Nat
  parallel : List Nat
  deriving DecidableEq

structure ResetReservation where
  sessionId : String
  unknown : Bool
  deriving DecidableEq

inductive OperationPhase where
  /-- For the completion of earlier operations. -/
  | waiting
  | revalidating
  /-- In its body. -/
  | running
  /-- The body or the revalidation has succeeded or failed; `finally` comes next. -/
  | settled
  /-- `finally` has released the slot. -/
  | released
  /-- What waits for its completion may go on. -/
  | completed
  deriving DecidableEq

structure Operation where
  session : AuthenticatedDemoSession
  parallel : Bool
  queue : Nat
  /-- The operations in the promise that it waits for. -/
  awaits : List Nat
  phase : OperationPhase
  deriving DecidableEq

/-- It has been admitted, and has not released its slot. -/
def Operation.admitted (o : Operation) : Bool :=
  o.phase ≠ .released ∧ o.phase ≠ .completed

/-- An entry of `queues` or of `resets`: a session, and the number of its object. -/
structure SessionEntry where
  sessionId : String
  ref : Nat
  deriving DecidableEq

structure Coordinator where
  maxOperations : Nat
  maxSessions : Nat
  queues : Table SessionEntry String (·.sessionId)
  resets : Table SessionEntry String (·.sessionId)
  queueObjects : List Queue
  reservations : List ResetReservation
  operations : List Operation

namespace Coordinator

def new (maxOperations maxSessions : Nat) : Except DemoError Coordinator :=
  if maxOperations > 0 ∧ maxSessions > 0 then
    .ok {
      maxOperations
      maxSessions
      queues := .empty
      resets := .empty
      queueObjects := []
      reservations := []
      operations := [] }
  else .error (.other "Session queue limits must be positive integers")

variable (c : Coordinator)

def queueObject (q : Nat) : Queue := c.queueObjects.getD q ⟨none, 0, []⟩

def activeSessionCount : Nat := c.queues.rows.length

/-! ## Reservations -/

def assertNotResetting (id : String) : Except DemoError Unit :=
  match c.resets.get? id with
  | none => .ok ()
  | some entry =>
      if (c.reservations[entry.ref]?.map (·.unknown)).getD false then .error .resetOutcomeUnknown
      else .error .resetConflict

/-- The number of the new reservation comes with it. -/
def reserveCleanup (sessionId : String) : Except DemoError (Nat × Coordinator) := do
  c.assertNotResetting sessionId
  if (c.queues.get? sessionId).isSome then .error .resetConflict
  else if c.queues.rows.length + c.resets.rows.length ≥ c.maxSessions then .error .resetConflict
  else
    .ok (c.reservations.length, { c with
      resets := c.resets.insert ⟨sessionId, c.reservations.length⟩
      reservations := c.reservations ++ [⟨sessionId, false⟩] })

/-- `trusted` is what `sessions.assertTrusted` finds. -/
def tryBeginReset (trusted : Bool) (session : AuthenticatedDemoSession) :
    Except DemoError (Nat × Coordinator) :=
  if trusted then c.reserveCleanup session.sessionId else .error .sessionUnavailable

/-- The session that reservation number `r` is for. -/
def reservedSession (r : Nat) : String := (c.reservations[r]?.map (·.sessionId)).getD ""

def finishReset (r : Nat) : Except DemoError Coordinator :=
  if (c.resets.get? (c.reservedSession r)).map (·.ref) = some r then
    .ok { c with resets := c.resets.erase (c.reservedSession r) }
  else .error .invalidResetReservation

/-- `reservation.unknown = true`. -/
def markUnknown (r : Nat) : Coordinator :=
  { c with reservations := c.reservations.modify r fun x => { x with unknown := true } }

/-! ## Admission -/

/-- The condition under which `admit` refuses. -/
def full (sessionId : String) (parallel : Bool) : Bool :=
  match c.queues.get? sessionId with
  | some entry => (c.queueObject entry.ref).size ≥ c.maxOperations
      ∨ parallel ∧ (c.queueObject entry.ref).parallel.length ≥ 4
  | none => c.queues.rows.length + c.resets.rows.length ≥ c.maxSessions

/-- The queue of the session, which is made when there is none. -/
def withQueue (sessionId : String) : Nat × Coordinator :=
  match c.queues.get? sessionId with
  | some entry => (entry.ref, c)
  | none =>
      (c.queueObjects.length, { c with
        queues := c.queues.insert ⟨sessionId, c.queueObjects.length⟩
        queueObjects := c.queueObjects ++ [⟨none, 0, []⟩] })

def setQueue (q : Nat) (queue : Queue) : Coordinator :=
  { c with queueObjects := c.queueObjects.set q queue }

/-- `admit`. -/
def admitOperation (trusted : Bool) (session : AuthenticatedDemoSession) (parallel : Bool) :
    Except DemoError (Nat × Coordinator) := do
  if trusted = false then .error .sessionUnavailable
  c.assertNotResetting session.sessionId
  if c.full session.sessionId parallel then .error .sessionQueueFull
  let (q, c) := c.withQueue session.sessionId
  .ok (q, c.setQueue q { c.queueObject q with size := (c.queueObject q).size + 1 })

/-- What `run` and `runParallel` do after `admit`: the operation is chained behind the
promises of `awaits`, and its completion goes into the queue. -/
def chain (q : Nat) (session : AuthenticatedDemoSession) (parallel : Bool) (awaits : List Nat)
    (queue : Queue) : Nat × Coordinator :=
  (c.operations.length, { c.setQueue q queue with
    operations := c.operations ++ [⟨session, parallel, q, awaits, .waiting⟩] })

/-- An exclusive operation waits for the tail and for the parallel operations before it. -/
def run (trusted : Bool) (session : AuthenticatedDemoSession) :
    Except DemoError (Nat × Coordinator) := do
  let (q, c) ← c.admitOperation trusted session false
  let queue := c.queueObject q
  .ok (c.chain q session false (queue.tail.toList ++ queue.parallel)
    { queue with tail := some c.operations.length })

/-- A parallel operation waits for the tail only. -/
def runParallel (trusted : Bool) (session : AuthenticatedDemoSession) :
    Except DemoError (Nat × Coordinator) := do
  let (q, c) ← c.admitOperation trusted session true
  let queue := c.queueObject q
  .ok (c.chain q session true queue.tail.toList
    { queue with parallel := queue.parallel ++ [c.operations.length] })

/-! ## The life of an operation -/

def setPhase (n : Nat) (phase : OperationPhase) : Coordinator :=
  { c with operations := c.operations.modify n fun o => { o with phase } }

def phaseIs (n : Nat) (phase : OperationPhase) : Bool :=
  (c.operations[n]?.map (·.phase)) = some phase

/-- `previous` is settled, and the revalidation is sent. -/
def start (n : Nat) : Option Coordinator :=
  match c.operations[n]? with
  | none => none
  | some o =>
      if o.phase = .waiting ∧ o.awaits.all (c.phaseIs · .completed) then
        some (c.setPhase n .revalidating)
      else none

/-- The answer of `sessions.revalidate`; the body is entered in the same step. -/
def revalidated (n : Nat) (valid : Bool) : Option Coordinator :=
  if c.phaseIs n .revalidating then some (c.setPhase n (if valid then .running else .settled))
  else none

/-- The body returns or throws. -/
def bodySettled (n : Nat) : Option Coordinator :=
  if c.phaseIs n .running then some (c.setPhase n .settled) else none

/-- The `finally` of the operation, with `release` in it. -/
def release (n : Nat) : Option Coordinator :=
  match c.operations[n]? with
  | none => none
  | some o =>
      if o.phase = .settled then
        let queue := c.queueObject o.queue
        let parallel := if o.parallel then queue.parallel.erase n else queue.parallel
        let c := (c.setPhase n .released).setQueue o.queue
          { queue with parallel, size := queue.size - 1 }
        some (if queue.size - 1 = 0 then { c with queues := c.queues.erase o.session.sessionId }
          else c)
      else none

/-- The promise of `operation.then(() => {}, () => {})` is settled. -/
def complete (n : Nat) : Option Coordinator :=
  if c.phaseIs n .released then some (c.setPhase n .completed) else none

end Coordinator

/-! ## Steps -/

/-- What happens at the gate. `trusted` is what `sessions.assertTrusted` finds. -/
inductive GateEvent where
  | run (trusted : Bool) (session : AuthenticatedDemoSession)
  | runParallel (trusted : Bool) (session : AuthenticatedDemoSession)
  | tryBeginReset (trusted : Bool) (session : AuthenticatedDemoSession)
  | reserveCleanup (sessionId : String)
  | finishReset (r : Nat)
  | markUnknown (r : Nat)
  | start (n : Nat)
  | revalidated (n : Nat) (valid : Bool)
  | bodySettled (n : Nat)
  | release (n : Nat)
  | complete (n : Nat)

/-- The gate after an event that can happen. A call that throws changes nothing. -/
def Coordinator.step (c : Coordinator) : GateEvent → Option Coordinator
  | .run trusted session => (c.run trusted session).toOption.map (·.2)
  | .runParallel trusted session => (c.runParallel trusted session).toOption.map (·.2)
  | .tryBeginReset trusted session => (c.tryBeginReset trusted session).toOption.map (·.2)
  | .reserveCleanup sessionId => (c.reserveCleanup sessionId).toOption.map (·.2)
  | .finishReset r => (c.finishReset r).toOption
  | .markUnknown r => some (c.markUnknown r)
  | .start n => c.start n
  | .revalidated n valid => c.revalidated n valid
  | .bodySettled n => c.bodySettled n
  | .release n => c.release n
  | .complete n => c.complete n

end CostEngine
