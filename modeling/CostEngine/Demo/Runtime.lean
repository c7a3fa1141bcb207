import CostEngine.Demo.Cleanup
import CostEngine.Demo.Coordinator
import CostEngine.Executor.FakeExecutor

/-! # `demo-runtime.ts`

The runtime of the demo: its database, the gate, the registry of the executors and the reset
service. Executors, reset calls, entries of the pending map and recovery connections are
numbered in the order they are made. -/

namespace CostEngine

open Relational (Table)

/-! ## Executors -/

structure RegistryEntry where
  sessionId : String
  executor : Nat
  deriving DecidableEq

structure DemoExecutorRegistry where
  instances : Table RegistryEntry String (·.sessionId)
  assigned : List Nat
  capacity : Nat

namespace DemoExecutorRegistry

def new (maxExecutors : Nat) : Except DemoError DemoExecutorRegistry :=
  if maxExecutors < 1 then .error (.other "Invalid executor registry capacity")
  else .ok ⟨.empty, [], maxExecutors⟩

variable (registry : DemoExecutorRegistry)

def executor? (sessionId : String) : Option Nat :=
  (registry.instances.get? sessionId).map (·.executor)

/-- `forSession`, when the session is revalidated. `created` is what `createExecutor` returns. -/
def forSession (sessionId : String) (created : Nat) :
    Except DemoError (Nat × DemoExecutorRegistry) :=
  match registry.instances.get? sessionId with
  | some existing => .ok (existing.executor, registry)
  | none =>
      if registry.instances.rows.length ≥ registry.capacity then .error .executorCapacityReached
      else if created ∈ registry.assigned then
        .error (.other "Each demo session must receive a distinct FakeExecutor")
      else
        .ok (created, { registry with
          assigned := created :: registry.assigned
          instances := registry.instances.insert ⟨sessionId, created⟩ })

def releaseSession (sessionId : String) : DemoExecutorRegistry :=
  { registry with instances := registry.instances.erase sessionId }

end DemoExecutorRegistry

/-! ## Sessions -/

/-- `demo_sessions`. -/
structure DemoSessionRow where
  id : String
  companyCode : String
  /-- `revoked_at IS NOT NULL`. -/
  revoked : Bool
  deriving DecidableEq

/-- What an operation has been answered, and the executor it works with. -/
structure OperationBody where
  /-- The answer of the revalidation before the body, on its way. -/
  answer : Option Bool := none
  /-- The answer of the revalidation in `forSession`, on its way. -/
  lookup : Option Bool := none
  executor : Option Nat := none
  deriving DecidableEq

/-! ## Resets -/

inductive ServerTransaction where
  | none | «open» | committed | aborted
  deriving DecidableEq

/-- What a call of `clean` waits for. -/
inductive CleanPhase where
  | connecting
  | beginning
  | locking
  | reading
  /-- The statements of `deleteOwnedDemoData` by their position. -/
  | deleting (k : Nat)
  | revoking
  | beforeCommit
  | committing
  /-- For `ROLLBACK`, after `error`. -/
  | rollingBack (error : DemoError)
  | resolving (reader : Nat)
  | done (outcome : Except DemoError Unit)
  deriving DecidableEq

/-- The rows, the revocation and the executor of a session at some moment. -/
structure SessionSnapshot where
  rows : Option OwnedRows
  revoked : Option Bool
  executor : Option Nat
  fake : Option FakeExecutor

/-- A call of `clean`, and its transaction at the server. -/
structure Clean where
  reservation : Nat
  sessionId : String
  session : Option AuthenticatedDemoSession
  phase : CleanPhase
  transaction : ServerTransaction
  lockSent : Bool
  commitSent : Bool
  company : String
  series : List Uuid
  versions : List Uuid
  jobs : List Uuid
  /-- For the specification: the session when the call was made. -/
  before : SessionSnapshot

/-- `Pending`. -/
structure PendingReset where
  reservation : Nat
  sessionId : String
  inactive : Bool
  resolving : Option Nat
  deriving DecidableEq

inductive ResetOutcome where
  | committed | rolledBack | unknown
  deriving DecidableEq

/-- What a call of `readOutcome` waits for, with what it has read. -/
inductive ReaderPhase where
  | connecting
  | locking
  | counting (revoked : Bool) (company : String)
  | committing (revoked : Option Bool) (remaining : Bool)
  /-- For `recovery.end()`. -/
  | ending (outcome : ResetOutcome)
  | done (outcome : ResetOutcome)
  deriving DecidableEq

structure OutcomeReader where
  entry : Nat
  sessionId : String
  phase : ReaderPhase
  deriving DecidableEq

/-- A call of `recoverPendingResets`: the entries that it has still to resolve. -/
structure RecoveryPass where
  entries : List Nat
  resolving : Option Nat
  deriving DecidableEq

structure DemoSessionResetService where
  pending : Table SessionEntry String (·.sessionId)
  entries : List PendingReset
  cleans : List Clean
  readers : List OutcomeReader
  passes : List RecoveryPass

/-- For the specification: a reservation that was given back by `finish`. -/
structure FinishedReset where
  reservation : Nat
  committed : Bool
  after : SessionSnapshot
  admissible : Bool

/-! ## The runtime -/

/-- The transaction that holds the lock of a session row. -/
inductive SessionLock where
  | clean (i : Nat)
  | reader (r : Nat)
  deriving DecidableEq

structure DemoRuntime where
  store : Store
  sessions : Table DemoSessionRow String (·.id)
  /-- The sessions whose `expires_at` has passed. -/
  expired : List String
  rowLocks : String → Option SessionLock
  contexts : List AuthenticatedDemoSession
  coordinator : Coordinator
  registry : DemoExecutorRegistry
  fakes : Nat → FakeExecutor
  bodies : Nat → OperationBody
  reset : DemoSessionResetService
  /-- For the specification: the reservations that were given back, and the calls of
  `finishReset` that threw. -/
  finished : List FinishedReset
  invalidFinishes : List Nat

namespace DemoRuntime

def start (store : Store) (sessions : Table DemoSessionRow String (·.id)) (expired : List String)
    (fakes : Nat → FakeExecutor) (coordinator : Coordinator) (registry : DemoExecutorRegistry) :
    DemoRuntime where
  store
  sessions
  expired
  rowLocks _ := none
  contexts := []
  coordinator
  registry
  fakes
  bodies _ := {}
  reset := ⟨.empty, [], [], [], []⟩
  finished := []
  invalidFinishes := []

variable (S : DemoRuntime)

def snapshot (id : String) : SessionSnapshot where
  rows := (S.sessions.get? id).map fun row => S.store.ownedBy row.companyCode
  revoked := (S.sessions.get? id).map (·.revoked)
  executor := S.registry.executor? id
  fake := (S.registry.executor? id).map S.fakes

def setLock (id : String) (lock : Option SessionLock) : DemoRuntime :=
  { S with rowLocks := Function.update S.rowLocks id lock }

def setBody (n : Nat) (body : OperationBody) : DemoRuntime :=
  { S with bodies := Function.update S.bodies n body }

def setClean (i : Nat) (cl : Clean) : DemoRuntime :=
  { S with reset := { S.reset with cleans := S.reset.cleans.set i cl } }

def setReader (r : Nat) (reader : OutcomeReader) : DemoRuntime :=
  { S with reset := { S.reset with readers := S.reset.readers.set r reader } }

/-- `revoked_at IS NULL AND expires_at > clock_timestamp()`. -/
def available (row : DemoSessionRow) : Bool := !row.revoked && row.id ∉ S.expired

/-- What `sessions.revalidate` finds for the session. -/
def valid (session : AuthenticatedDemoSession) : Bool :=
  (S.sessions.get? session.sessionId).any fun row =>
    row.companyCode = session.companyCode && S.available row

end DemoRuntime

end CostEngine
