import CostEngine.Demo.Runtime

/-! # `demo-session-reset.service.ts`

A method of the service runs without a break from one `await` to the next. Between the
client's steps are those of the server: it takes the row lock, commits or aborts when it gets
to it, also after the client has lost the connection. -/

namespace CostEngine

open Relational (Table)

namespace DemoRuntime

variable (S : DemoRuntime)

/-! ## `finish` -/

/-- The other result is whether `finishReset` has returned. -/
def finish (reservation : Nat) (committed : Bool) : Bool × DemoRuntime :=
  let id := S.coordinator.reservedSession reservation
  let S := { S with
    registry := if committed then S.registry.releaseSession id else S.registry
    reset := { S.reset with pending := S.reset.pending.erase id } }
  match S.coordinator.finishReset reservation with
  | .ok coordinator =>
      let S := { S with coordinator }
      let admissible := (S.coordinator.resets.get? id).isNone
      (true, { S with
        finished := S.finished ++ [⟨reservation, committed, S.snapshot id, admissible⟩] })
  | .error _ => (false, { S with invalidFinishes := S.invalidFinishes ++ [reservation] })

/-! ## `resolve` -/

/-- The call of `readOutcome` that resolves entry `k`: the one under way, or a new one. -/
def resolve (k : Nat) : Nat × DemoRuntime :=
  match S.reset.entries[k]? with
  | none => (S.reset.readers.length, S)
  | some entry =>
      match entry.resolving with
      | some r => (r, S)
      | none =>
          (S.reset.readers.length, { S with reset := { S.reset with
            entries := S.reset.entries.set k { entry with resolving := some S.reset.readers.length }
            readers := S.reset.readers ++ [(⟨k, entry.sessionId, .connecting⟩ : OutcomeReader)] } })

/-! ## `clean` -/

/-- The call of `clean` for the reservation that has just been made. -/
def beginClean (reserved : Except DemoError (Nat × Coordinator)) (id : String)
    (session : Option AuthenticatedDemoSession) : Option DemoRuntime :=
  match reserved with
  | .error _ => none
  | .ok (reservation, coordinator) =>
      let clean : Clean := {
        reservation, sessionId := id, session, phase := .connecting, transaction := .none,
        lockSent := false, commitSent := false, company := "", series := [], versions := [],
        jobs := [], before := S.snapshot id }
      some { S with coordinator, reset := { S.reset with cleans := S.reset.cleans ++ [clean] } }

/-- The end of the `catch` block, when the outcome is not known. -/
def markPending (i : Nat) (cl : Clean) : DemoRuntime :=
  let k := S.reset.entries.length
  let pending : PendingReset := ⟨cl.reservation, cl.sessionId, cl.session.isNone, none⟩
  let S := { S with
    coordinator := S.coordinator.markUnknown cl.reservation
    reset := { S.reset with
      entries := S.reset.entries ++ [pending]
      pending := S.reset.pending.set ⟨cl.sessionId, k⟩ } }
  let (r, S) := S.resolve k
  S.setClean i { cl with phase := .resolving r }

/-- The `catch` block, when the transaction is known to be rolled back. -/
def finishRolledBack (i : Nat) (cl : Clean) (error : DemoError) : DemoRuntime :=
  let (ok, S) := S.finish cl.reservation false
  let thrown := if ok then (if error = .sessionUnavailable then error else .resetFailed)
    else .invalidResetReservation
  S.setClean i { cl with phase := .done (.error thrown) }

/-- The row fits the context of the session, or is inactive if there is none. -/
def eligible (cl : Clean) (row : DemoSessionRow) : Bool :=
  match cl.session with
  | some session => S.available row && row.companyCode = session.companyCode
  | none => !S.available row

/-- One statement of `deleteOwnedDemoData`, in its order: the look for foreign references, the
selections of the series, the versions and the jobs, and nine deletions. -/
def deleteStatement (cl : Clean) : Nat → Clean
  | 0 =>
      if S.store.foreignReference cl.company then
        { cl with
          phase := .rollingBack (.other "Foreign snapshot references demo ownership graph") }
      else { cl with phase := .deleting 1 }
  | 1 => { cl with series := S.store.seriesIds cl.company, phase := .deleting 2 }
  | 2 => { cl with versions := S.store.versionIds cl.series, phase := .deleting 3 }
  | 3 => { cl with jobs := S.store.jobIds cl.versions, phase := .deleting 4 }
  | k => { cl with phase := if k < 12 then .deleting (k + 1) else .revoking }

/-- The transaction is over at the server, without effect. -/
def abortTransaction (i : Nat) (cl : Clean) : DemoRuntime :=
  let S := if S.rowLocks cl.sessionId = some (.clean i) then S.setLock cl.sessionId none else S
  S.setClean i { cl with transaction := .aborted }

/-- What call `i` waits for has succeeded. -/
def advance (i : Nat) : Option DemoRuntime :=
  match S.reset.cleans[i]? with
  | none => none
  | some cl =>
      match cl.phase with
      | .connecting => some (S.setClean i { cl with phase := .beginning })
      | .beginning =>
          some (S.setClean i { cl with phase := .locking, transaction := .open, lockSent := true })
      | .locking =>
          if cl.transaction = .open ∧ (S.rowLocks cl.sessionId = some (.clean i)
              ∨ S.sessions.get? cl.sessionId = none) then
            some (S.setClean i { cl with phase := .reading })
          else none
      | .reading =>
          if cl.transaction = .open then
            match (S.sessions.get? cl.sessionId).filter (S.eligible cl) with
            | none => some (S.setClean i { cl with phase := .rollingBack .sessionUnavailable })
            | some row =>
                some (S.setClean i { cl with company := row.companyCode, phase := .deleting 0 })
          else none
      | .deleting k =>
          if cl.transaction = .open then some (S.setClean i (S.deleteStatement cl k)) else none
      | .revoking =>
          if cl.transaction = .open then some (S.setClean i { cl with phase := .beforeCommit })
          else none
      | .beforeCommit =>
          some (S.setClean i { cl with phase := .committing, commitSent := true })
      | .committing =>
          if cl.transaction = .committed then
            let (ok, S) := S.finish cl.reservation true
            some (if ok then S.setClean i { cl with phase := .done (.ok ()) }
              else S.markPending i cl)
          else none
      | .rollingBack error =>
          some ((S.abortTransaction i cl).finishRolledBack i { cl with transaction := .aborted }
            error)
      | .resolving r =>
          match (S.reset.readers[r]?).map OutcomeReader.phase with
          | some (.done .committed) => some (S.setClean i { cl with phase := .done (.ok ()) })
          | some (.done .rolledBack) =>
              some (S.setClean i { cl with phase := .done (.error .resetFailed) })
          | some (.done .unknown) =>
              some (S.setClean i { cl with phase := .done (.error .resetOutcomeUnknown) })
          | _ => none
      | .done _ => none

/-- What call `i` waits for has failed, or is lost. -/
def fail (i : Nat) (message : String) : Option DemoRuntime :=
  match S.reset.cleans[i]? with
  | none => none
  | some cl =>
      match cl.phase with
      | .connecting => some (S.finishRolledBack i cl (.other message))
      | .beginning | .locking | .reading | .deleting _ | .revoking | .beforeCommit =>
          some (S.setClean i { cl with phase := .rollingBack (.other message) })
      | .committing | .rollingBack _ => some (S.markPending i cl)
      | .resolving _ | .done _ => none

/-! ### The server -/

/-- The row lock of `SELECT … FOR UPDATE`. -/
def lock (i : Nat) : Option DemoRuntime :=
  match S.reset.cleans[i]? with
  | none => none
  | some cl =>
      if cl.transaction = .open ∧ cl.lockSent ∧ S.rowLocks cl.sessionId = none
          ∧ (S.sessions.get? cl.sessionId).isSome then
        some (S.setLock cl.sessionId (some (.clean i)))
      else none

/-- The commit of a transaction whose `COMMIT` was sent. -/
def commit (i : Nat) : Option DemoRuntime :=
  match S.reset.cleans[i]? with
  | none => none
  | some cl =>
      match S.sessions.get? cl.sessionId with
      | none => none
      | some row =>
          if cl.transaction = .open ∧ cl.commitSent then
            let S := { S with
              store := S.store.deleteOwned cl.series cl.versions cl.jobs
              sessions := S.sessions.put { row with revoked := true } }
            some ((S.setLock cl.sessionId none).setClean i { cl with transaction := .committed })
          else none

def abort (i : Nat) : Option DemoRuntime :=
  match S.reset.cleans[i]? with
  | none => none
  | some cl => if cl.transaction = .open then some (S.abortTransaction i cl) else none

/-! ## `readOutcome` -/

/-- The end of `readOutcome`, when its `COMMIT` is acknowledged. `revoked` is of the row, if
there is one. -/
def verdict (r : Nat) (reader : OutcomeReader) (revoked : Option Bool) (remaining : Bool) :
    DemoRuntime :=
  match S.reset.entries[reader.entry]?, revoked with
  | some entry, some revoked =>
      if revoked && remaining && !entry.inactive then
        S.setReader r { reader with phase := .ending .unknown }
      else
        let committed := revoked && !remaining
        let (ok, S) := S.finish entry.reservation committed
        let outcome : ResetOutcome :=
          if ok then (if committed then .committed else .rolledBack) else .unknown
        S.setReader r { reader with phase := .ending outcome }
  | _, _ => S.setReader r { reader with phase := .ending .unknown }

/-- What reader `r` waits for has succeeded. -/
def read (r : Nat) : Option DemoRuntime :=
  match S.reset.readers[r]? with
  | none => none
  | some reader =>
      match reader.phase with
      | .connecting => some (S.setReader r { reader with phase := .locking })
      | .locking =>
          match S.sessions.get? reader.sessionId with
          | none => some (S.setReader r { reader with phase := .committing none false })
          | some row =>
              if S.rowLocks reader.sessionId = none then
                some ((S.setLock reader.sessionId (some (.reader r))).setReader r
                  { reader with phase := .counting row.revoked row.companyCode })
              else none
      | .counting revoked company =>
          if S.rowLocks reader.sessionId = some (.reader r) then
            some (S.setReader r { reader with
              phase := .committing (some revoked) (S.store.seriesIds company ≠ []) })
          else none
      | .committing revoked remaining =>
          if S.rowLocks reader.sessionId = some (.reader r) then none
          else some (S.verdict r reader revoked remaining)
      | .ending outcome =>
          match S.reset.entries[reader.entry]? with
          | none => none
          | some entry =>
              let S := S.setReader r { reader with phase := .done outcome }
              some { S with reset := { S.reset with
                entries := S.reset.entries.set reader.entry { entry with resolving := none } } }
      | .done _ => none

/-- What reader `r` waits for has failed. -/
def readFailed (r : Nat) : Option DemoRuntime :=
  match S.reset.readers[r]? with
  | none => none
  | some reader =>
      match reader.phase with
      | .connecting | .locking | .counting .. | .committing .. =>
          some (S.setReader r { reader with phase := .ending .unknown })
      | .ending _ | .done _ => none

/-- The server ends the transaction of reader `r`. -/
def unlock (r : Nat) : Option DemoRuntime :=
  match S.reset.readers[r]? with
  | none => none
  | some reader =>
      if S.rowLocks reader.sessionId = some (.reader r) then some (S.setLock reader.sessionId none)
      else none

/-! ## `recoverPendingResets` -/

def recover (limit : Nat) : Option DemoRuntime :=
  if 1 ≤ limit ∧ limit ≤ 1000 then
    some { S with reset := { S.reset with
      passes := S.reset.passes ++ [⟨(S.reset.pending.rows.map (·.ref)).take limit, none⟩] } }
  else none

/-- The next entry of pass `p`, or the end of the resolution that it waits for. -/
def next (p : Nat) : Option DemoRuntime :=
  match S.reset.passes[p]? with
  | none => none
  | some pass =>
      match pass.resolving, pass.entries with
      | some r, _ =>
          match (S.reset.readers[r]?).map OutcomeReader.phase with
          | some (.done _) => some { S with reset := { S.reset with
              passes := S.reset.passes.set p { pass with resolving := none } } }
          | _ => none
      | none, k :: entries =>
          let (r, S) := S.resolve k
          some { S with reset := { S.reset with
            passes := S.reset.passes.set p ⟨entries, some r⟩ } }
      | none, [] => none

end DemoRuntime

/-! ## Steps -/

/-- What happens in the runtime. `maintainInactiveSessions` is a call of `recover` and calls
of `cleanup`. -/
inductive DemoEvent where
  | create (id company : String)
  | expire (id : String)
  | authenticate (id : String)
  | run (session : AuthenticatedDemoSession)
  | runParallel (session : AuthenticatedDemoSession)
  | startOperation (n : Nat)
  | revalidate (n : Nat) (lost : Bool)
  | revalidated (n : Nat)
  | lookup (n : Nat) (lost : Bool)
  | forSession (n : Nat) (created : Nat)
  | useExecutor (n : Nat) (call : FakeCall)
  | write (n : Nat) (w : Write)
  | bodySettled (n : Nat)
  | releaseSlot (n : Nat)
  | complete (n : Nat)
  | reset (session : AuthenticatedDemoSession)
  | cleanup (id : String)
  | advance (i : Nat)
  | fail (i : Nat) (message : String)
  | lock (i : Nat)
  | commit (i : Nat)
  | abort (i : Nat)
  | read (r : Nat)
  | readFailed (r : Nat)
  | unlock (r : Nat)
  | recover (limit : Nat)
  | next (p : Nat)

namespace DemoRuntime

variable (S : DemoRuntime)

/-- An operation in its body. -/
def inBody (n : Nat) : Option Operation :=
  (S.coordinator.operations[n]?).filter fun o => o.phase = .running

/-- Something that happens at the gate, and nowhere else. -/
def gate (event : GateEvent) : Option DemoRuntime :=
  (S.coordinator.step event).map fun coordinator => { S with coordinator }

/-- `INSERT INTO demo_sessions … WHERE NOT EXISTS …`, and the context of the new session. Its
id is a new random UUID, so no call of `clean` has named it. -/
def create (id company : String) : Option DemoRuntime :=
  if (S.sessions.get? id).isNone ∧ S.sessions.rows.all (·.companyCode ≠ company)
      ∧ S.store.seriesIds company = [] ∧ S.reset.cleans.all (·.sessionId ≠ id) then
    some { S with
      sessions := S.sessions.insert ⟨id, company, false⟩
      contexts := ⟨id, company⟩ :: S.contexts }
  else none

/-- The time `expires_at` of the session has come. -/
def expire (id : String) : DemoRuntime := { S with expired := id :: S.expired }

def authenticate (id : String) : Option DemoRuntime :=
  ((S.sessions.get? id).filter S.available).map fun row =>
    { S with contexts := ⟨row.id, row.companyCode⟩ :: S.contexts }

/-- The database answers the revalidation of operation `n`, or the answer is lost. -/
def revalidate (n : Nat) (lost : Bool) : Option DemoRuntime :=
  ((S.coordinator.operations[n]?).filter fun o => o.phase = .revalidating).map fun o =>
    S.setBody n { S.bodies n with answer := some (S.valid o.session && !lost) }

def revalidated (n : Nat) : Option DemoRuntime :=
  (S.bodies n).answer.bind fun answer =>
    (S.gate (.revalidated n answer)).map fun S => S.setBody n { S.bodies n with answer := none }

/-- The database answers the revalidation in `forSession`, or the answer is lost. -/
def lookup (n : Nat) (lost : Bool) : Option DemoRuntime :=
  (S.inBody n).map fun o =>
    S.setBody n { S.bodies n with lookup := some (S.valid o.session && !lost) }

/-- The rest of `forSession`. When it throws, the operation has no new executor. -/
def forSession (n : Nat) (created : Nat) : Option DemoRuntime :=
  (S.inBody n).bind fun o =>
    (S.bodies n).lookup.map fun valid =>
      let S := S.setBody n { S.bodies n with lookup := none }
      if valid then
        match S.registry.forSession o.session.sessionId created with
        | .ok (executor, registry) =>
            { S with registry }.setBody n { S.bodies n with executor := some executor }
        | .error _ => S
      else S

def useExecutor (n : Nat) (call : FakeCall) : Option DemoRuntime :=
  (S.inBody n).bind fun _ =>
    (S.bodies n).executor.map fun executor =>
      { S with fakes := Function.update S.fakes executor ((S.fakes executor).call call) }

/-- A row of the company of the session is written. -/
def write (n : Nat) (w : Write) : Option DemoRuntime :=
  ((S.inBody n).filter fun o => S.store.within o.session.companyCode w).map fun _ =>
    { S with store := S.store.apply w }

/-- The runtime after an event that can happen. -/
def step (S : DemoRuntime) : DemoEvent → Option DemoRuntime
  | .create id company => S.create id company
  | .expire id => some (S.expire id)
  | .authenticate id => S.authenticate id
  | .run session => S.gate (.run (session ∈ S.contexts) session)
  | .runParallel session => S.gate (.runParallel (session ∈ S.contexts) session)
  | .startOperation n => S.gate (.start n)
  | .revalidate n lost => S.revalidate n lost
  | .revalidated n => S.revalidated n
  | .lookup n lost => S.lookup n lost
  | .forSession n created => S.forSession n created
  | .useExecutor n call => S.useExecutor n call
  | .write n w => S.write n w
  | .bodySettled n => S.gate (.bodySettled n)
  | .releaseSlot n => S.gate (.release n)
  | .complete n => S.gate (.complete n)
  | .reset session =>
      S.beginClean (S.coordinator.tryBeginReset (session ∈ S.contexts) session) session.sessionId
        (some session)
  | .cleanup id => S.beginClean (S.coordinator.reserveCleanup id) id none
  | .advance i => S.advance i
  | .fail i message => S.fail i message
  | .lock i => S.lock i
  | .commit i => S.commit i
  | .abort i => S.abort i
  | .read r => S.read r
  | .readFailed r => S.readFailed r
  | .unlock r => S.unlock r
  | .recover limit => S.recover limit
  | .next p => S.next p

/-- A run of the runtime, from `S` on. -/
def runs : List DemoEvent → DemoRuntime → Option DemoRuntime
  | [], S => some S
  | event :: events, S => (S.step event).bind (runs events)

end DemoRuntime

end CostEngine
