import Mathlib.Data.List.Sort
import Mathlib.Data.String.Basic
import CostEngine.Concurrency.Semantics
import CostEngine.Store.Schema

/-! # Row locks and the transaction monad

PostgreSQL row locks come in modes. Three of them occur here: `FOR UPDATE` (the locking
reads, and the index entries of a new row), `FOR NO KEY UPDATE` (an `UPDATE` that leaves
the key alone) and `FOR KEY SHARE` (taken on the parent by a foreign key). -/

namespace CostEngine

/-- What a lock is taken on: a row, by its key, or an entry of the unique index
`uq_dataset_series_identity`, on which two inserts of the same identity wait for each
other before there is a row. -/
inductive Row where
  | calculationType (id : Uuid)
  | dependencyDefinition (id : Uuid)
  | seriesIdentity (identity : SeriesIdentity)
  | datasetSeries (id : Uuid)
  | datasetVersion (id : Uuid)
  | calculationJob (id : Uuid)
  | datasetBuildSnapshot (id : Uuid)
  | executionAttempt (id : Uuid)
  deriving DecidableEq

inductive LockMode where
  | keyShare | noKeyUpdate | forUpdate
  deriving DecidableEq

structure RowLock where
  mode : LockMode
  row : Row
  deriving DecidableEq

abbrev RowLock.forUpdate (row : Row) : RowLock := ⟨.forUpdate, row⟩
abbrev RowLock.noKeyUpdate (row : Row) : RowLock := ⟨.noKeyUpdate, row⟩
abbrev RowLock.keyShare (row : Row) : RowLock := ⟨.keyShare, row⟩

/-- The conflict table of the three modes. -/
def LockMode.conflicts : LockMode → LockMode → Bool
  | .keyShare, .keyShare => false
  | .keyShare, .noKeyUpdate => false
  | .noKeyUpdate, .keyShare => false
  | _, _ => true

theorem LockMode.conflicts_comm (m n : LockMode) : m.conflicts n = n.conflicts m := by
  cases m <;> cases n <;> rfl

/-- A lock under which the row may be changed, so that nobody else can. -/
def LockMode.exclusive : LockMode → Bool
  | .keyShare => false
  | _ => true

theorem LockMode.exclusive_conflicts {m n : LockMode} (hm : m.exclusive = true)
    (hn : n.exclusive = true) : m.conflicts n = true := by
  revert hm hn; cases m <;> cases n <;> decide

def RowLock.conflict (l m : RowLock) : Prop :=
  l.row = m.row ∧ l.mode.conflicts m.mode = true

instance (l m : RowLock) : Decidable (l.conflict m) :=
  inferInstanceAs (Decidable (_ ∧ _))

theorem RowLock.conflict_symm (l m : RowLock) (h : l.conflict m) : m.conflict l :=
  ⟨h.1.symm, by rw [LockMode.conflicts_comm]; exact h.2⟩

/-! ## Errors -/

/-- What the services throw. The last three are not application errors: a violated
unique constraint (SQLSTATE 23505), any other exception, and the private signal that
sends a Run back to its routing read. -/
inductive ServiceError where
  | calculationJobNotFound (jobId : Uuid)
  | dependencyDefinitionNotReady (calculationTypeCodes : List String)
  | dependencyNotReady (requiredDomains : List String)
  | jobNotRunnable (jobId : Uuid)
  | executorDispatchFailed (jobId : Uuid)
  | executionAttemptNotFound (identity : String)
  | executionNotReconcilable (jobId : Uuid)
  | executorStatusUnavailable
  | calculationStateInvariant (message : String)
  | activeDatasetVersionExists
  | calculationTypeNotConfigured
  | datasetVersionNotFound (datasetVersionId : Uuid)
  | datasetNotReadyForValidation
  | datasetHasActiveExecution
  | datasetStateConflict
  | datasetStateInvariant (message : String)
  | uniqueViolation (constraint : String)
  | error (message : String)
  | attemptRoutingRace
  deriving DecidableEq

/-! ## Transactions -/

/-- What `BEGIN` fixes for a transaction, and the UUIDs it will draw. -/
structure TxEnv where
  now : Time
  uuid : Nat → Uuid

abbrev Tx := Concurrency.Txn Store RowLock Write ServiceError

abbrev Tx.throw {α : Type} (e : ServiceError) : Tx α := Concurrency.Txn.throw e

/-- `invariant(message)` of the calculation-job services. -/
def invariant {α : Type} (message : String) : Tx α :=
  Tx.throw (.calculationStateInvariant message)

/-- `ORDER BY` the texts `f`, in order of precedence. -/
def orderBy {α : Type} (f : α → List String) (rows : List α) : List α :=
  rows.insertionSort fun a b => f a ≤ f b

theorem orderBy_perm {α : Type} (f : α → List String) (rows : List α) :
    (orderBy f rows).Perm rows := List.perm_insertionSort _ rows

@[simp] theorem mem_orderBy {α : Type} {f : α → List String} {rows : List α} {a : α} :
    a ∈ orderBy f rows ↔ a ∈ rows := (orderBy_perm f rows).mem_iff

end CostEngine
