import CostEngine.Concurrency.Semantics
import CostEngine.Store.Locks

/-! # `raw-ingestion.service.ts` and `raw-ingestion.repository.ts`

The tables of raw ingestion stand apart from those of the orchestration schema. A batch is
allocated in one transaction; what becomes of it later is decided outside. -/

namespace CostEngine

open Relational (Table)
open Concurrency (Machine State Txn Call)

/-! ## Rows -/

inductive RawIngestionDomain where
  | fabCostRaw | capexRaw | dprRaw
  deriving DecidableEq

inductive RawIngestionStatus where
  | loading | validating | ready | failed
  deriving DecidableEq

/-- `status IN ('LOADING', 'VALIDATING')`. -/
def RawIngestionStatus.isActive : RawIngestionStatus → Bool
  | .loading | .validating => true
  | .ready | .failed => false

/-- The request, which is also the key of a series. -/
structure AllocateRawIngestionBatchInput where
  domain : RawIngestionDomain
  businessKey : String
  deriving DecidableEq

/-- `raw_ingestion_series`. -/
structure RawIngestionSeries where
  id : Uuid
  domain : RawIngestionDomain
  businessKey : String
  lastBatchSequence : Nat
  createdAt : Time
  deriving DecidableEq

/-- `(domain, business_key)`. -/
def RawIngestionSeries.key (row : RawIngestionSeries) : AllocateRawIngestionBatchInput :=
  ⟨row.domain, row.businessKey⟩

/-- `raw_ingestion_batches`. -/
structure RawIngestionBatch where
  id : Uuid
  ingestionSeriesId : Uuid
  batchSequence : Nat
  status : RawIngestionStatus
  createdAt : Time
  completedAt : Option Time
  deriving DecidableEq

/-- The two tables. -/
structure RawIngestionStore where
  series : Table RawIngestionSeries Uuid (·.id)
  batches : Table RawIngestionBatch Uuid (·.id)

inductive RawIngestionWrite where
  | insertSeries (row : RawIngestionSeries)
  | putSeries (row : RawIngestionSeries)
  | insertBatch (row : RawIngestionBatch)

namespace RawIngestionStore

/-- A committed write. -/
def apply (s : RawIngestionStore) : RawIngestionWrite → RawIngestionStore
  | .insertSeries row => { s with series := s.series.insert row }
  | .putSeries row => { s with series := s.series.put row }
  | .insertBatch row => { s with batches := s.batches.insert row }

def seriesWith? (s : RawIngestionStore) (key : AllocateRawIngestionBatchInput) :
    Option RawIngestionSeries :=
  s.series.rows.find? fun row => row.key = key

/-- The batches of a series, in the order of their inserts. -/
def batchesOf (s : RawIngestionStore) (seriesId : Uuid) : List RawIngestionBatch :=
  s.batches.select fun batch => batch.ingestionSeriesId = seriesId

end RawIngestionStore

/-! ## Transactions -/

/-- A row, or an entry of the unique index on `(domain, business_key)`. -/
inductive RawIngestionLock where
  | seriesKey (key : AllocateRawIngestionBatchInput)
  | series (id : Uuid)
  | batch (id : Uuid)
  deriving DecidableEq

/-- What a call can be rejected with. -/
inductive RawIngestionError where
  | activeRawIngestionBatchExists
  | uniqueViolation (constraint : String)
  /-- The counter does not fit an `integer`. -/
  | outOfRange
  | error (message : String)
  deriving DecidableEq

/-- A transaction on these two tables. -/
abbrev RawIngestionTx := Txn RawIngestionStore RawIngestionLock RawIngestionWrite RawIngestionError

def RawIngestionTx.throw {α : Type} (e : RawIngestionError) : RawIngestionTx α := Txn.throw e

structure AllocatedRawIngestionSeries where
  ingestionSeriesId : Uuid
  batchSequence : Nat

structure AllocateRawIngestionBatchResult where
  batchId : Uuid
  ingestionSeriesId : Uuid
  batchSequence : Nat
  status : RawIngestionStatus

def RawIngestionSeries.bumped (row : RawIngestionSeries) : RawIngestionSeries :=
  { row with lastBatchSequence := row.lastBatchSequence + 1 }

/-- `DO UPDATE SET last_batch_sequence = raw_ingestion_series.last_batch_sequence + 1`. -/
def bumpRawIngestionSeries (id : Uuid) : RawIngestionTx AllocatedRawIngestionSeries := do
  Txn.lock (.series id)
  match ← Txn.select (·.series.get? id) with
  -- The row was there when the statement began, and no row is ever deleted.
  | none => RawIngestionTx.throw (.error "Cannot read properties of undefined (reading 'id')")
  | some row => do
      if row.bumped.lastBatchSequence > 2147483647 then RawIngestionTx.throw .outOfRange
      else do
        Txn.change (.putSeries row.bumped)
        pure ⟨row.id, row.bumped.lastBatchSequence⟩

/-- `INSERT … ON CONFLICT (domain, business_key) DO UPDATE …`. Two inserts of the same key wait
for each other at its index entry. -/
def allocateRawIngestionSeries (env : TxEnv) (newSeriesId : Uuid)
    (input : AllocateRawIngestionBatchInput) : RawIngestionTx AllocatedRawIngestionSeries := do
  match ← Txn.select (·.seriesWith? input) with
  | some row => bumpRawIngestionSeries row.id
  | none => do
      Txn.lock (.seriesKey input)
      match ← Txn.select (·.seriesWith? input) with
      | some row => bumpRawIngestionSeries row.id
      | none => do
          Txn.insertRow (.series newSeriesId)
            (fun s =>
              if (s.series.get? newSeriesId).isSome then
                some (.uniqueViolation "raw_ingestion_series_pkey")
              else none)
            (.insertSeries
              { id := newSeriesId
                domain := input.domain
                businessKey := input.businessKey
                lastBatchSequence := 1
                createdAt := env.now })
          pure ⟨newSeriesId, 1⟩

/-- The last check is the partial unique index on active batches. -/
def createRawIngestionBatch (env : TxEnv) (batchId ingestionSeriesId : Uuid)
    (batchSequence : Nat) : RawIngestionTx Unit :=
  Txn.insertRow (.batch batchId)
    (fun s =>
      if (s.batches.get? batchId).isSome then
        some (.uniqueViolation "raw_ingestion_batches_pkey")
      else if (s.batchesOf ingestionSeriesId).any (·.batchSequence = batchSequence) then
        some (.uniqueViolation "uq_raw_ingestion_batches_series_sequence")
      else if (s.batchesOf ingestionSeriesId).any (·.status.isActive) then
        some (.uniqueViolation "uq_raw_ingestion_batches_active_series")
      else none)
    (.insertBatch
      { id := batchId
        ingestionSeriesId
        batchSequence
        status := .loading
        createdAt := env.now
        completedAt := none })

/-- The transaction of `allocateRawIngestionBatch`, which draws two UUIDs. -/
def allocateRawIngestionBatchTx (input : AllocateRawIngestionBatchInput) (env : TxEnv) :
    RawIngestionTx AllocateRawIngestionBatchResult := do
  let newSeriesId := env.uuid 0
  let batchId := env.uuid 1
  let allocateResult ← allocateRawIngestionSeries env newSeriesId input
  createRawIngestionBatch env batchId allocateResult.ingestionSeriesId allocateResult.batchSequence
  pure
    { batchId
      ingestionSeriesId := allocateResult.ingestionSeriesId
      batchSequence := allocateResult.batchSequence
      status := .loading }

/-! ## The service -/

/-- A service call, which uses no executor. -/
abbrev RawIngestionCall := Call RawIngestionStore RawIngestionError AllocateRawIngestionBatchInput
  (fun _ => AllocateRawIngestionBatchResult) Empty Empty (fun _ => Empty)

/-- Only the violated active-batch index is turned into an error of its own. -/
def allocateRawIngestionBatch (input : AllocateRawIngestionBatchInput) :
    RawIngestionCall AllocateRawIngestionBatchResult :=
  tryCatch (Call.transaction input) fun error =>
    if error = .uniqueViolation "uq_raw_ingestion_batches_active_series" then
      throw .activeRawIngestionBatchExists
    else throw error

/-- A transaction from outside moves batches on. No batch becomes active by it. -/
inductive RawIngestionStore.Moves (s : RawIngestionStore) : RawIngestionStore → Prop
  | intro (move : RawIngestionBatch → RawIngestionBatch) (batches)
      (hid : ∀ batch, (move batch).id = batch.id)
      (hseries : ∀ batch, (move batch).ingestionSeriesId = batch.ingestionSeriesId)
      (hsequence : ∀ batch, (move batch).batchSequence = batch.batchSequence)
      (hstatus : ∀ batch, (move batch).status.isActive = true → batch.status.isActive = true)
      (hrows : batches.rows = s.batches.rows.map move) : s.Moves { s with batches }

/-- The service as a machine: any number of calls at once, with rows moved on from outside. -/
def rawIngestion : Machine RawIngestionStore RawIngestionLock RawIngestionWrite RawIngestionError
    TxEnv AllocateRawIngestionBatchInput (fun _ => AllocateRawIngestionBatchResult) Empty Empty
    (fun _ => Empty) Unit AllocateRawIngestionBatchInput AllocateRawIngestionBatchResult where
  apply := RawIngestionStore.apply
  conflict := (· = ·)
  conflict_symm _ _ := Eq.symm
  body := allocateRawIngestionBatchTx
  serve := allocateRawIngestionBatch
  begins _ _ := True
  sends _ w := w
  answers _ _ _ := True
  worldStep _ _ := False
  configStep s _ s' := s.Moves s'

abbrev RawIngestionSystem := State RawIngestionStore RawIngestionLock RawIngestionWrite
  RawIngestionError TxEnv AllocateRawIngestionBatchInput
  (fun _ => AllocateRawIngestionBatchResult) Empty Empty (fun _ => Empty) Unit
  AllocateRawIngestionBatchInput AllocateRawIngestionBatchResult

/-- What a statement reads. -/
abbrev RawIngestionMoment := Concurrency.Global RawIngestionStore Unit

/-- No batch yet, and nobody at work. -/
def RawIngestionSystem.start : RawIngestionSystem := .quiet ⟨⟨.empty, .empty⟩, ()⟩

end CostEngine
