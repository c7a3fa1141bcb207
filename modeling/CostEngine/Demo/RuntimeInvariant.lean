import CostEngine.Demo.GateSteps
import CostEngine.Demo.ResetService

/-! # What holds in the runtime of the demo

The reservation of a call of `clean` is the gate's current one until it is finished, and it is
finished once. While it is current, nothing of its session changes but by its own commit. -/

namespace CostEngine

open Relational (Table)

/-! ## Calls of `clean` -/

/-- The call has not handed over to a recovery connection, and is not over. -/
def Clean.active (cl : Clean) : Bool :=
  match cl.phase with
  | .resolving _ | .done _ => false
  | _ => true

/-- The server can still commit the transaction. -/
def Clean.mayCommit (cl : Clean) : Prop := cl.transaction = .open ∧ cl.commitSent = true

/-- It has read the row of its session. -/
def Clean.reads (cl : Clean) : Bool :=
  match cl.phase with
  | .deleting _ | .revoking | .beforeCommit | .committing => true
  | _ => cl.commitSent

/-- The statements of `deleteOwnedDemoData` that are behind it. -/
def Clean.progress (cl : Clean) : Nat :=
  match cl.phase with
  | .deleting k => k
  | .revoking | .beforeCommit | .committing => 13
  | _ => if cl.commitSent then 13 else 0

/-- Its transaction must hold the row lock. -/
def Clean.needsLock (cl : Clean) : Prop :=
  cl.transaction = .open ∧ (cl.phase = .reading ∨ cl.reads = true)

/-- What the variables of a call say about each other. -/
structure Clean.Fits (cl : Clean) : Prop where
  sent : cl.commitSent = true → cl.phase = .committing ∨ cl.active = false
  committed : cl.transaction = .committed → cl.commitSent = true
  before : cl.before.revoked = some true → cl.before.executor = none
  series : ∀ rows, cl.before.rows = some rows → 2 ≤ cl.progress →
    cl.series = rows.series.map (·.id)
  versions : ∀ rows, cl.before.rows = some rows → 3 ≤ cl.progress →
    cl.versions = rows.versions.map (·.id)
  jobs : ∀ rows, cl.before.rows = some rows → 4 ≤ cl.progress → cl.jobs = rows.jobs.map (·.id)

namespace DemoRuntime

/-! ## Sessions -/

variable (S : DemoRuntime)

def revokedIn (id : String) : Prop :=
  ∃ row, S.sessions.get? id = some row ∧ row.revoked = true

/-- The session is revoked, and its company owns no series. -/
def durable (id : String) : Prop :=
  ∃ row, S.sessions.get? id = some row ∧ row.revoked = true
    ∧ S.store.seriesIds row.companyCode = []

def isFinished (i : Nat) : Prop := ∃ f ∈ S.finished, f.reservation = i

/-- Reservation `i` was given back, with this verdict. -/
def finishedAs (i : Nat) (committed : Bool) : Prop :=
  ∃ f ∈ S.finished, f.reservation = i ∧ f.committed = committed

/-- Operation `n` has seen its session unrevoked, and its body may act on it. -/
def entered (n : Nat) (o : Operation) : Prop :=
  o.phase = .running ∨ (o.phase = .revalidating ∧ (S.bodies n).answer = some true)
    ∨ (o.admitted = true ∧ (S.bodies n).executor ≠ none)

/-- A call of `clean` returns or throws as its reservation was finished. -/
def explained (i : Nat) : Except DemoError Unit → Prop
  | .ok () => S.finishedAs i true
  | .error e => e = .resetOutcomeUnknown
      ∨ (e = .resetFailed ∨ e = .sessionUnavailable) ∧ S.finishedAs i false

def resolvedAs (i : Nat) : ResetOutcome → Prop
  | .committed => S.finishedAs i true
  | .rolledBack => S.finishedAs i false
  | .unknown => True

/-- The entry of reader `reader` has a reservation that is not finished. -/
def unfinishedEntry (reader : OutcomeReader) (cl : Clean) : Prop :=
  ∃ e, S.reset.entries[reader.entry]? = some e ∧ S.reset.cleans[e.reservation]? = some cl
    ∧ ¬ S.isFinished e.reservation

/-- What a reader has read of the row. -/
def saw (reader : OutcomeReader) (revoked : Bool) : Prop :=
  (revoked = true → S.revokedIn reader.sessionId)
    ∧ ∀ cl, S.unfinishedEntry reader cl → ¬ cl.mayCommit
      ∧ (S.sessions.get? reader.sessionId).map (·.revoked) = some revoked

structure Invariant : Prop where
  gate : S.coordinator.Ok
  companies : ∀ id id' row row', S.sessions.get? id = some row → S.sessions.get? id' = some row' →
    row.companyCode = row'.companyCode → id = id'
  contexts : ∀ x ∈ S.contexts, ∃ row, S.sessions.get? x.sessionId = some row
    ∧ row.companyCode = x.companyCode
  operations : ∀ (n : Nat) (o : Operation), S.coordinator.operations[n]? = some o →
    o.session ∈ S.contexts
  fresh : ∀ n, S.coordinator.operations.length ≤ n → S.bodies n = {}
  answered : ∀ (n : Nat) (o : Operation), S.coordinator.operations[n]? = some o →
    (S.bodies n).answer ≠ none → o.phase = .revalidating
  live : ∀ (n : Nat) (o : Operation), S.coordinator.operations[n]? = some o → S.entered n o →
    ¬ S.revokedIn o.session.sessionId
  assigned : ∀ s e, S.registry.instances.get? s = some e → e.executor ∈ S.registry.assigned
  distinct : ∀ s s' e e', S.registry.instances.get? s = some e →
    S.registry.instances.get? s' = some e' → e.executor = e'.executor → s = s'
  capacity : S.registry.instances.rows.length ≤ S.registry.capacity
  registered : ∀ s, S.registry.executor? s ≠ none → S.revokedIn s →
    S.coordinator.resets.get? s ≠ none
  executors : ∀ (n : Nat) (o : Operation) x, S.coordinator.operations[n]? = some o →
    (S.bodies n).executor = some x →
    S.registry.executor? o.session.sessionId = some x ∨ S.revokedIn o.session.sessionId
  numbered : S.reset.cleans.length = S.coordinator.reservations.length
  reserved : ∀ (i : Nat) (cl : Clean), S.reset.cleans[i]? = some cl →
    cl.reservation = i ∧ S.coordinator.reservedSession i = cl.sessionId
  current : ∀ (i : Nat) (cl : Clean), S.reset.cleans[i]? = some cl →
    (¬ S.isFinished i ↔ S.coordinator.resets.get? cl.sessionId = some ⟨cl.sessionId, i⟩)
  active : ∀ (i : Nat) (cl : Clean), S.reset.cleans[i]? = some cl → cl.active = true →
    ¬ S.isFinished i
  mayCommit : ∀ (i : Nat) (cl : Clean), S.reset.cleans[i]? = some cl → cl.mayCommit →
    ¬ S.isFinished i
  fits : ∀ (i : Nat) (cl : Clean), S.reset.cleans[i]? = some cl → cl.Fits
  locked : ∀ (i : Nat) (cl : Clean), S.reset.cleans[i]? = some cl → cl.needsLock →
    S.rowLocks cl.sessionId = some (.clean i) ∨ S.sessions.get? cl.sessionId = none
  company : ∀ (i : Nat) (cl : Clean), S.reset.cleans[i]? = some cl → cl.reads = true →
    ∃ row, S.sessions.get? cl.sessionId = some row ∧ row.companyCode = cl.company
  committed : ∀ (i : Nat) (cl : Clean), S.reset.cleans[i]? = some cl →
    cl.transaction = .committed → S.durable cl.sessionId
  unchanged : ∀ (i : Nat) (cl : Clean), S.reset.cleans[i]? = some cl → ¬ S.isFinished i →
    cl.transaction ≠ .committed → S.snapshot cl.sessionId = cl.before
  resolving : ∀ (i : Nat) (cl : Clean) r, S.reset.cleans[i]? = some cl → cl.phase = .resolving r →
    ∃ reader e, S.reset.readers[r]? = some reader ∧ S.reset.entries[reader.entry]? = some e
      ∧ e.reservation = i
  outcome : ∀ (i : Nat) (cl : Clean) out, S.reset.cleans[i]? = some cl → cl.phase = .done out →
    S.explained i out
  entries : ∀ (k : Nat) (e : PendingReset), S.reset.entries[k]? = some e →
    ∃ cl, S.reset.cleans[e.reservation]? = some cl ∧ cl.sessionId = e.sessionId
      ∧ cl.active = false
  readers : ∀ (r : Nat) (reader : OutcomeReader), S.reset.readers[r]? = some reader →
    ∃ e, S.reset.entries[reader.entry]? = some e ∧ e.sessionId = reader.sessionId
  readerOf : ∀ (k : Nat) (e : PendingReset) r, S.reset.entries[k]? = some e →
    e.resolving = some r → ∃ reader, S.reset.readers[r]? = some reader ∧ reader.entry = k
  counting : ∀ (r : Nat) (reader : OutcomeReader) revoked company,
    S.reset.readers[r]? = some reader → reader.phase = .counting revoked company →
    S.saw reader revoked
      ∧ ∃ row, S.sessions.get? reader.sessionId = some row ∧ row.companyCode = company
  committing : ∀ (r : Nat) (reader : OutcomeReader) revoked remaining,
    S.reset.readers[r]? = some reader → reader.phase = .committing (some revoked) remaining →
    S.saw reader revoked ∧ (revoked = true → remaining = false → S.durable reader.sessionId)
      ∧ ∀ cl, S.unfinishedEntry reader cl → remaining = true →
        ¬ S.durable reader.sessionId
  verdicts : ∀ (r : Nat) (reader : OutcomeReader) e out, S.reset.readers[r]? = some reader →
    S.reset.entries[reader.entry]? = some e →
    reader.phase = .ending out ∨ reader.phase = .done out → S.resolvedAs e.reservation out
  finishes : ∀ f ∈ S.finished, ∃ cl, S.reset.cleans[f.reservation]? = some cl
    ∧ f.admissible = true
    ∧ (f.committed = true → S.durable cl.sessionId ∧ S.registry.executor? cl.sessionId = none)
    ∧ (f.committed = false → f.after = cl.before)
  once : (S.finished.map (·.reservation)).Nodup

end DemoRuntime

end CostEngine
