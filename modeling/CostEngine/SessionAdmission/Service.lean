import CostEngine.Codec.Base64Url
import CostEngine.Concurrency.Semantics
import CostEngine.Relational.Table
import CostEngine.Store.Schema

/-! # `create` and `revoke` of `demo-session.service.ts`

The rows are those of `demo_sessions`, and of `dataset_series` the company codes. Statements
read the clock of the server, so it is part of what they see; it counts microseconds. -/

namespace CostEngine

open Relational (Table)
open Concurrency (Machine State Txn Call)

/-! ## Rows -/

/-- `demo_sessions`. -/
structure SessionRow where
  id : Uuid
  companyCode : String
  tokenHash : List UInt8
  createdAt : Time
  expiresAt : Time
  revokedAt : Option Time
  deriving DecidableEq

structure SessionDatabase where
  demoSessions : Table SessionRow Uuid (·.id)
  /-- `company_code` of `dataset_series`. -/
  companies : List String
  clock : Time

inductive SessionWrite where
  | insertSession (row : SessionRow)
  | putSession (row : SessionRow)

/-- `revoked_at = COALESCE(revoked_at, clock_timestamp())`. -/
def SessionRow.revoke (row : SessionRow) (now : Time) : SessionRow :=
  { row with revokedAt := some (row.revokedAt.getD now) }

/-- `UPDATE … SET revoked_at = … WHERE` the id satisfies `p`. -/
def SessionRow.revokeIf (p : Uuid → Bool) (now : Time) (row : SessionRow) : SessionRow :=
  if p row.id then row.revoke now else row

/-- `revoked_at IS NULL AND expires_at > clock_timestamp()`. -/
def SessionRow.isActive (row : SessionRow) (now : Time) : Bool :=
  row.revokedAt.isNone && row.expiresAt > now

namespace SessionDatabase

variable (db : SessionDatabase)

def apply : SessionWrite → SessionDatabase
  | .insertSession row => { db with demoSessions := db.demoSessions.insert row }
  | .putSession row => { db with demoSessions := db.demoSessions.put row }

def retained : Nat := db.demoSessions.rows.length

def active : Nat := (db.demoSessions.select (·.isActive db.clock)).length

def hasCompany (companyCode : String) : Bool :=
  db.demoSessions.rows.any (·.companyCode = companyCode)

def hasHash (hash : List UInt8) : Bool := db.demoSessions.rows.any (·.tokenHash = hash)

end SessionDatabase

/-! ## Statements -/

/-- The modes in which `demo_sessions` is locked, and its rows and unique index entries. -/
inductive DemoSessionsLock where
  | shareRowExclusive
  | rowExclusive
  | id (id : Uuid)
  | companyCode (companyCode : String)
  | tokenHash (hash : List UInt8)
  deriving DecidableEq

/-- `ROW EXCLUSIVE` is compatible with itself. -/
def DemoSessionsLock.conflict : DemoSessionsLock → DemoSessionsLock → Prop
  | .shareRowExclusive, .shareRowExclusive => True
  | .shareRowExclusive, .rowExclusive => True
  | .rowExclusive, .shareRowExclusive => True
  | .rowExclusive, _ => False
  | l, m => l = m

instance : DecidableRel DemoSessionsLock.conflict := fun l m => by
  cases l <;> cases m <;> unfold DemoSessionsLock.conflict <;> infer_instance

structure PgError where
  code : String
  violated : Option String := none
  deriving DecidableEq

inductive SessionError where
  | demoSession (code : String) (statusCode : Nat) (message : String)
  | allocationExhausted
  | pg (error : PgError)
  | error (message : String)
  deriving DecidableEq

/-- An error on its way through `create`, with `commitSent`. -/
structure SessionFailure where
  error : SessionError
  commitSent : Bool := false
  deriving DecidableEq

inductive SessionStatement where
  | begin | lockTimeout | statementTimeout | lockTable | count
  | insert (attempt : Nat)
  | revoke
  deriving DecidableEq

structure SessionCandidate where
  id : Uuid
  token : List UInt8
  companyCode : String
  deriving DecidableEq

/-- What is not decided by the rows: the candidates, the errors of statements, of
`beforeCommit` and of `COMMIT`. -/
structure SessionEnv where
  candidate : Nat → SessionCandidate
  fails : SessionStatement → Option PgError
  beforeCommit : Option SessionError
  commitFails : Bool

abbrev SessionTx := Txn SessionDatabase DemoSessionsLock SessionWrite SessionFailure

def SessionTx.throw {α : Type} (error : SessionError) : SessionTx α := Txn.throw ⟨error, false⟩

/-- A statement other than `INSERT` fails, or goes on. -/
def SessionEnv.statement (env : SessionEnv) (s : SessionStatement) : SessionTx Unit :=
  match env.fails s with
  | some error => SessionTx.throw (.pg error)
  | none => pure ()

/-! ## Admission -/

structure SessionCapacity where
  active : Nat
  retained : Nat

def capacityReached : SessionError :=
  .demoSession "DEMO_SESSION_CAPACITY_REACHED" 503 "Demo session capacity reached"

/-- The capacity check, in the transaction of the insert. -/
def admitSession (env : SessionEnv) : Option SessionCapacity → SessionTx Unit
  | none => pure ()
  | some capacity => do
      env.statement .lockTable
      Txn.lock .shareRowExclusive
      env.statement .count
      let counts ← Txn.select fun db => (db.active, db.retained)
      if counts.1 ≥ capacity.active ∨ counts.2 ≥ capacity.retained then
        SessionTx.throw capacityReached
      else pure ()

/-! ## Allocation -/

/-- `date_trunc('milliseconds', …)`. -/
def millisecond (now : Time) : Time := now / 1000 * 1000

def sessionLifetime : Time := 4 * 60 * 60 * 1000000

/-- `company_code ~ '^DEMO_[0-9A-F]{15}$'`. -/
def demoCompanyCode (companyCode : String) : Bool :=
  companyCode.toList.take 5 = "DEMO_".toList && (companyCode.toList.drop 5).length = 15
    && (companyCode.toList.drop 5).all fun c => c.isDigit || ('A' ≤ c && c ≤ 'F')

/-- The check constraints of the table. -/
def SessionRow.violated (row : SessionRow) : Option String :=
  if row.tokenHash.length ≠ 32 then some "ck_demo_sessions_hash"
  else if demoCompanyCode row.companyCode = false then some "ck_demo_sessions_company"
  else if row.expiresAt ≤ row.createdAt then some "ck_demo_sessions_expiry"
  else if row.revokedAt.any (· < row.createdAt) then some "ck_demo_sessions_revocation"
  else none

/-- A unique constraint keeps the row out. -/
def SessionDatabase.taken (db : SessionDatabase) (row : SessionRow) : Bool :=
  (db.demoSessions.get? row.id).isSome || db.hasCompany row.companyCode || db.hasHash row.tokenHash

/-- `INSERT … SELECT … WHERE NOT EXISTS … ON CONFLICT DO NOTHING RETURNING …`. The condition is
that of the statement's snapshot. The insert of a key then waits for those under way. -/
def insertSession (candidate : SessionCandidate) (hash : List UInt8) :
    SessionTx (Except PgError (Option SessionRow)) := do
  Txn.lock .rowExclusive
  let instant ← Txn.select fun db => (db.clock, db.companies.contains candidate.companyCode)
  let now := millisecond instant.1
  let row : SessionRow :=
    { id := candidate.id
      companyCode := candidate.companyCode
      tokenHash := hash
      createdAt := now
      expiresAt := now + sessionLifetime
      revokedAt := none }
  if instant.2 then pure (.ok none)
  else match row.violated with
    | some violated => pure (.error ⟨"23514", some violated⟩)
    | none => do
        Txn.lock (.id row.id)
        Txn.lock (.companyCode row.companyCode)
        Txn.lock (.tokenHash row.tokenHash)
        if ← Txn.select (·.taken row) then pure (.ok none)
        else do
          Txn.change (.insertSession row)
          pure (.ok (some row))

/-- `db.query` with the `INSERT`. After an error the transaction takes no more statements. -/
def queryInsert (env : SessionEnv) (attempt : Nat) (aborted : Bool) (candidate : SessionCandidate)
    (hash : List UInt8) : SessionTx (Except PgError (Option SessionRow)) :=
  if aborted then pure (.error ⟨"25P02", none⟩)
  else match env.fails (.insert attempt) with
    | some error => pure (.error error)
    | none => insertSession candidate hash

/-- `AuthenticatedDemoSession`, whose status is `ACTIVE`. -/
structure SessionContext where
  sessionId : Uuid
  companyCode : String
  expiresAt : Time
  deriving DecidableEq

def SessionRow.context (row : SessionRow) : SessionContext :=
  ⟨row.id, row.companyCode, row.expiresAt⟩

structure CreatedSession where
  session : SessionContext
  token : List Char
  deriving DecidableEq

/-- A unique violation that `allocate` takes for a collision. -/
def PgError.isCollision (error : PgError) : Bool :=
  error.code = "23505" && ["demo_sessions_pkey", "uq_demo_sessions_company_code",
    "uq_demo_sessions_token_hash"].contains (error.violated.getD "")

section

variable (sha256 : List UInt8 → List UInt8)

/-- `for (let attempt = 0; attempt < 5; attempt += 1)`, for the attempts that are left. -/
def allocateSession (env : SessionEnv) : List Nat → Bool → SessionTx CreatedSession
  | [], _ => SessionTx.throw .allocationExhausted
  | attempt :: attempts, aborted =>
      let candidate := env.candidate attempt
      if candidate.token.length ≠ 32 then SessionTx.throw (.error "Invalid session candidate")
      else do
        match ← queryInsert env attempt aborted candidate (sha256 candidate.token) with
        | .ok none => allocateSession env attempts aborted
        | .ok (some row) => pure ⟨row.context, Base64Url.encode candidate.token⟩
        | .error error =>
            if error.isCollision then allocateSession env attempts true
            else SessionTx.throw (.error "Demo session persistence failed")

/-- The transaction of `create`. -/
def createSessionTx (capacity : Option SessionCapacity) (env : SessionEnv) :
    SessionTx CreatedSession := do
  env.statement .begin
  env.statement .lockTimeout
  env.statement .statementTimeout
  admitSession env capacity
  let created ← allocateSession sha256 env (List.range 5) false
  match env.beforeCommit with
  | some error => SessionTx.throw error
  | none =>
      if env.commitFails then Txn.throw ⟨.error "COMMIT", true⟩
      else pure created

end

/-- The statement of `revoke`, a transaction of its own. The row is read again under its lock. -/
def revokeSessionTx (sessionId : Uuid) (env : SessionEnv) : SessionTx Unit := do
  env.statement .revoke
  Txn.lock .rowExclusive
  match ← Txn.select (·.demoSessions.get? sessionId) with
  | none => pure ()
  | some _ => do
      Txn.lock (.id sessionId)
      let found ← Txn.select fun db => (db.demoSessions.get? sessionId, db.clock)
      match found.1 with
      | none => pure ()
      | some row => Txn.change (.putSession (row.revoke found.2))

/-! ## The service -/

inductive SessionRequest where
  | create
  | revoke (sessionId : Uuid)
  deriving DecidableEq

abbrev SessionRequest.Result : SessionRequest → Type
  | .create => CreatedSession
  | .revoke _ => Unit

inductive SessionReply where
  | created (created : CreatedSession)
  | revoked

/-- What the client of the database is told: whether it has a connection, and whether the reply
to `COMMIT` arrives. -/
inductive SessionQuestion where
  | connect | committed

abbrev SessionCall := Call SessionDatabase SessionFailure SessionRequest SessionRequest.Result
  Empty SessionQuestion (fun _ => Bool)

def SessionCall.throw {α : Type} (error : SessionError) : SessionCall α := .ret (.error ⟨error, false⟩)

def SessionCall.ask (question : SessionQuestion) : SessionCall Bool :=
  .await question fun answer => .ret (.ok answer)

def demoUnavailable : SessionError := .demoSession "DEMO_UNAVAILABLE" 503 "Demo unavailable"

def createOutcomeUnknown : SessionError :=
  .demoSession "DEMO_SESSION_CREATE_OUTCOME_UNKNOWN" 503
    "Demo session create outcome unavailable; no credential issued"

/-- The `catch` of `create`. -/
def SessionFailure.reported (failure : SessionFailure) : SessionError :=
  if failure.commitSent then createOutcomeUnknown
  else match failure.error with
    | .demoSession code statusCode message => .demoSession code statusCode message
    | .allocationExhausted => .allocationExhausted
    | .pg _ | .error _ => .error "Demo session persistence failed"

def createSession : SessionCall CreatedSession := do
  if ← SessionCall.ask .connect then do
    let created ← tryCatch (Call.transaction SessionRequest.create)
      fun failure => SessionCall.throw failure.reported
    if ← SessionCall.ask .committed then pure created
    else SessionCall.throw createOutcomeUnknown
  else SessionCall.throw demoUnavailable

def serveSession : SessionRequest → SessionCall SessionReply
  | .create => do
      let created ← createSession
      pure (.created created)
  | .revoke sessionId => do
      let _ ← Call.transaction (SessionRequest.revoke sessionId)
      pure .revoked

/-! ## The system -/

/-- What happens besides: time passes, a session creates a dataset, and sessions are revoked,
where a reset also deletes their datasets. -/
inductive SessionDatabase.Moves (db : SessionDatabase) : List DemoSessionsLock → SessionDatabase → Prop
  | tick (now : Time) : db.clock ≤ now → db.Moves [] { db with clock := now }
  | createDataset (row : SessionRow) : row ∈ db.demoSessions.rows →
      db.Moves [] { db with companies := db.companies ++ [row.companyCode] }
  | revoke (p : Uuid → Bool) (deleted : String → Bool) (now : Time) (demoSessions) :
      now ≤ db.clock → demoSessions.rows = db.demoSessions.rows.map (·.revokeIf p now) →
      db.Moves (.rowExclusive :: (db.demoSessions.select (p ·.id)).map (.id ·.id))
        { db with demoSessions, companies := db.companies.filter fun c => !deleted c }

def sessionService (sha256 : List UInt8 → List UInt8) (capacity : Option SessionCapacity) :
    Machine SessionDatabase DemoSessionsLock SessionWrite SessionFailure SessionEnv SessionRequest
      SessionRequest.Result Empty SessionQuestion (fun _ => Bool) Unit SessionRequest
      SessionReply where
  apply := SessionDatabase.apply
  conflict := DemoSessionsLock.conflict
  conflict_symm l m h := by
    cases l <;> cases m <;> first | exact trivial | cases h
    all_goals rfl
  body t env := match t with
    | .create => createSessionTx sha256 capacity env
    | .revoke sessionId => revokeSessionTx sessionId env
  serve := serveSession
  begins _ _ := True
  sends _ w := w
  answers _ _ _ := True
  worldStep _ _ := False
  configStep db L db' := db.Moves L db'

abbrev SessionSystem := State SessionDatabase DemoSessionsLock SessionWrite SessionFailure SessionEnv
  SessionRequest SessionRequest.Result Empty SessionQuestion (fun _ => Bool) Unit SessionRequest
  SessionReply

abbrev SessionMoment := Concurrency.Global SessionDatabase Unit

end CostEngine
