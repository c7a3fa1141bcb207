import CostEngine.Demo.ReadPagination
import CostEngine.Demo.Runtime
import CostEngine.Relational.Keyset
import Mathlib.Data.String.Basic

/-! # `demo-read.repository.ts` and the list routes of `demo-read.route.ts`

Each list is one statement, so it sees one committed state. A uuid is its text in lower case:
the order of such texts is the order of the uuids. -/

namespace CostEngine

open Relational (Table orderByKey)

/-- `id.toLowerCase()`, and the text of `id::uuid`, for the text of an id. -/
def lowerCase (id : String) : String := String.ofList (id.toList.map Char.toLower)

/-- What a uuid column can hold. -/
def IsUuid (id : Uuid) : Prop := validResourceId id = true ∧ lowerCase id = id

instance (id : Uuid) : Decidable (IsUuid id) := inferInstanceAs (Decidable (_ ∧ _))

/-- The tables that the lists read, with the column types and the unique constraint that they
rely on. -/
structure ReadDatabase where
  store : Store
  demoSessions : Table DemoSessionRow String (·.id)
  sessionIds : ∀ row ∈ demoSessions.rows, IsUuid row.id
  versionIds : ∀ v ∈ store.datasetVersions.rows, IsUuid v.id
  jobIds : ∀ j ∈ store.calculationJobs.rows, IsUuid j.id
  attemptNumbers : ∀ a ∈ store.executionAttempts.rows,
    1 ≤ a.attemptNumber ∧ a.attemptNumber ≤ 2147483647
  uniqueAttempts : ∀ jobId, ((store.attemptsOf jobId).map (·.attemptNumber)).Nodup

/-! ## Items -/

structure DemoFrozenInputDto where
  domain : String
  fiscalYear : Nat
  period : DatasetPeriod
  version : Nat
  deriving DecidableEq

structure DemoDatasetDto where
  datasetVersionId : Uuid
  datasetSeriesId : Uuid
  domain : String
  fiscalYear : Nat
  period : DatasetPeriod
  version : Nat
  datasetStatus : DatasetVersionStatus
  createdAt : Time
  frozenInputs : List DemoFrozenInputDto
  deriving DecidableEq

structure DemoJobDto where
  jobId : Uuid
  datasetVersionId : Uuid
  calculationTypeCode : String
  jobStatus : CalculationJobStatus
  createdAt : Time
  startedAt : Option Time
  finishedAt : Option Time
  deriving DecidableEq

structure DemoAttemptDto where
  executionAttemptId : Uuid
  attemptNumber : Nat
  attemptStatus : ExecutionAttemptStatus
  createdAt : Time
  dispatchStartedAt : Option Time
  acceptedAt : Option Time
  finishedAt : Option Time
  deriving DecidableEq

namespace ReadDatabase

variable (db : ReadDatabase) (session : AuthenticatedDemoSession)

/-- `JOIN dataset_series ds … JOIN demo_sessions s ON s.company_code=ds.company_code AND
s.id=$1`: the series of a version, if the session owns it. -/
def owner (v : DatasetVersion) : Option DatasetSeries :=
  match db.store.datasetSeries.get? v.datasetSeriesId, db.demoSessions.get? session.sessionId with
  | some ds, some s => if s.companyCode = ds.identity.companyCode then some ds else none
  | _, _ => none

def frozenInputs (datasetVersionId : Uuid) : List DemoFrozenInputDto :=
  orderByKey (·.domain) <|
    (db.store.snapshotsOf datasetVersionId).flatMap fun b =>
      (db.store.dependenciesOf b.id).filterMap fun d =>
        match db.store.datasetVersions.get? d.upstreamDatasetVersionId,
          db.store.datasetSeries.get? d.upstreamDatasetSeriesId with
        | some uv, some us =>
            some ⟨us.identity.domain, us.identity.fiscalYear, us.identity.period, uv.version⟩
        | _, _ => none

def datasetItem (v : DatasetVersion) (ds : DatasetSeries) : DemoDatasetDto where
  datasetVersionId := v.id
  datasetSeriesId := ds.id
  domain := ds.identity.domain
  fiscalYear := ds.identity.fiscalYear
  period := ds.identity.period
  version := v.version
  datasetStatus := v.status
  createdAt := v.createdAt
  frozenInputs := db.frozenInputs v.id

def jobItem (j : CalculationJob) : Option DemoJobDto :=
  (db.store.calculationTypes.get? j.calculationTypeId).map fun ct =>
    { jobId := j.id
      datasetVersionId := j.outputDatasetVersionId
      calculationTypeCode := ct.code
      jobStatus := j.status
      createdAt := j.createdAt
      startedAt := j.startedAt
      finishedAt := j.finishedAt }

def attemptItem (a : ExecutionAttempt) : DemoAttemptDto where
  executionAttemptId := a.id
  attemptNumber := a.attemptNumber
  attemptStatus := a.status
  createdAt := a.createdAt
  dispatchStartedAt := a.dispatchStartedAt
  acceptedAt := a.acceptedAt
  finishedAt := a.finishedAt

/-! ## Listed rows -/

def datasetRows : List DemoDatasetDto :=
  db.store.datasetVersions.rows.filterMap fun v => (db.owner session v).map (db.datasetItem v)

/-- The version of the path, if the session owns it, and its jobs. -/
def jobRows (id : String) : Option (List DemoJobDto) :=
  ((db.store.datasetVersions.get? (lowerCase id)).filter fun v =>
    (db.owner session v).isSome).map fun v => (db.store.jobsOf v.id).filterMap db.jobItem

/-- The job of the path, if the session owns its version, and its attempts. -/
def attemptRows (id : String) : Option (List DemoAttemptDto) :=
  ((db.store.calculationJobs.get? (lowerCase id)).filter fun j =>
    ((db.store.datasetVersions.get? j.outputDatasetVersionId).bind (db.owner session)).isSome).map
      fun j => (db.store.attemptsOf j.id).map attemptItem

end ReadDatabase

/-! ## `DemoReadRepository` -/

def readScope (s : AuthenticatedDemoSession) (id : String) : String :=
  s.sessionId ++ ":" ++ lowerCase id

/-- `$2::uuid`. -/
def ReadPage.afterId (page : ReadPage) : Option Uuid :=
  match page.after with
  | some (.id text) => some (lowerCase text)
  | _ => none

/-- `$3::integer`. -/
def ReadPage.afterNumber (page : ReadPage) : Option Nat :=
  match page.after with
  | some (.number n) => some n
  | _ => none

/-- `WHERE after IS NULL OR key > after ORDER BY key LIMIT limit + 1`. -/
def nextRows {κ T : Type} [LinearOrder κ] (key : T → κ) (after : Option κ) (limit : Nat)
    (rows : List T) : List T :=
  (orderByKey key (rows.filter fun row => after.all fun a => a < key row)).take (limit + 1)

namespace ReadDatabase

variable (db : ReadDatabase) (session : AuthenticatedDemoSession)

def datasets (page : ReadPage) : PublicPage DemoDatasetDto :=
  publicPage (nextRows (·.datasetVersionId) page.afterId page.limit (db.datasetRows session)) page
    .datasets (readScope session "") fun r => .id r.datasetVersionId

def jobs (id : String) (page : ReadPage) : Except DemoReadError (PublicPage DemoJobDto) :=
  match db.jobRows session id with
  | none => .error .resourceUnavailable
  | some rows =>
      .ok (publicPage (nextRows (·.jobId) page.afterId page.limit rows) page .jobs
        (readScope session id) fun r => .id r.jobId)

def attempts (id : String) (page : ReadPage) : Except DemoReadError (PublicPage DemoAttemptDto) :=
  match db.attemptRows session id with
  | none => .error .resourceUnavailable
  | some rows =>
      .ok (publicPage (nextRows (·.attemptNumber) page.afterNumber page.limit rows) page .attempts
        (readScope session id) fun r => .number r.attemptNumber)

end ReadDatabase

/-! ## The list routes -/

inductive ReadRoute where
  | datasets
  | jobs (id : String)
  | attempts (id : String)
  deriving DecidableEq

inductive ReadItem where
  | dataset (item : DemoDatasetDto)
  | job (item : DemoJobDto)
  | attempt (item : DemoAttemptDto)
  deriving DecidableEq

def PublicPage.map {T U : Type} (f : T → U) (page : PublicPage T) : PublicPage U where
  items := page.items.map f
  nextCursor := page.nextCursor

/-- The answer of a list route. The id of a path is checked first. -/
def demoRead (parse : List UInt8 → Option Json) (db : ReadDatabase)
    (session : AuthenticatedDemoSession) (query : Json) :
    ReadRoute → Except DemoReadError (PublicPage ReadItem)
  | .datasets => do
      let page ← readPage parse query .datasets (readScope session "")
      return (db.datasets session page).map .dataset
  | .jobs id =>
      if validResourceId id = false then .error .resourceUnavailable
      else do
        let page ← readPage parse query .jobs (readScope session id)
        let answer ← db.jobs session id page
        return answer.map .job
  | .attempts id =>
      if validResourceId id = false then .error .resourceUnavailable
      else do
        let page ← readPage parse query .attempts (readScope session id)
        let answer ← db.attempts session id page
        return answer.map .attempt

end CostEngine
