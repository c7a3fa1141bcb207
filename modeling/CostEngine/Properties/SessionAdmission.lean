import CostEngine.Concurrency.Script
import CostEngine.SessionAdmission.Transaction

/-! # Sessions are admitted within the capacity, and each has its own company -/

namespace CostEngine

open Concurrency (Action Active Stage play)

namespace SessionSystem

variable {sha256 : List UInt8 → List UInt8} {capacity : SessionCapacity} {st st' : SessionSystem}

abbrev Creation := Active SessionDatabase DemoSessionsLock SessionWrite SessionFailure SessionEnv Unit
  CreatedSession

/-- What a commit of `create` leaves is within the capacity. The new company had no dataset when
the session was inserted, which was in the last state that the transaction has seen, and it has
none yet. -/
structure AdmitsWithin (sha256 : List UInt8 → List UInt8) (capacity : SessionCapacity)
    (st : SessionSystem) (a : Creation) (created : CreatedSession) : Prop where
  active : ((sessionService sha256 (some capacity)).commit st.shared a.writes).db.active
    ≤ capacity.active
  retained : ((sessionService sha256 (some capacity)).commit st.shared a.writes).db.retained
    ≤ capacity.retained
  inserted : ∃ row g, a.writes = [.insertSession row] ∧ row.Backs sha256 created
    ∧ a.seen.getLast? = some g ∧ row.companyCode ∉ g.db.companies
    ∧ row.companyCode ∉ st.shared.db.companies

/-- A run leads from `st` to `st'` in which the thread `i` serves one call of `create`, which fails
and knows the outcome. -/
structure FailsCreate (sha256 : List UInt8 → List UInt8) (capacity : SessionCapacity) (i : Nat)
    (st st' : SessionSystem) : Prop where
  call : st.threads i = .running .create [] (serveSession .create)
  run : (sessionService sha256 (some capacity)).RunWhere (fun st _ => st.threads i ≠ .idle) st st'
  failed : ∃ log failure, st'.threads i = .running .create log (.ret (.error failure))
    ∧ failure.error ≠ createOutcomeUnknown

theorem Reachable.distinct (h : Reachable sha256 (some capacity) st) :
    st.shared.db.demoSessions.rows.Pairwise fun a b =>
      a.id ≠ b.id ∧ a.companyCode ≠ b.companyCode ∧ a.tokenHash ≠ b.tokenHash := by
  have hinv : st.shared.db.Distinct := h.safe.inv
  have hids := List.pairwise_map.mp st.shared.db.demoSessions.nodup
  exact hids.and ((List.pairwise_map.mp hinv.companies).and (List.pairwise_map.mp hinv.hashes))

theorem Reachable.admits (h : Reachable sha256 (some capacity) st) {i : Nat}
    {created : CreatedSession} {a : Creation} (he : st.Ending i .create (.ok created) a) :
    AdmitsWithin sha256 capacity st a created := by
  obtain ⟨⟨req, log, k, hi⟩, hr⟩ := he
  obtain ⟨last, -, hends⟩ := h.safe.commits hi hr
  obtain ⟨row, hadmits⟩ := hends.spec created rfl
  obtain ⟨candidate, hinserts, hlength, htoken⟩ := hadmits.allocates.inserts
  obtain ⟨earlier, g, hseen, hg⟩ := hinserts.snapshot
  have hview : ((sessionService sha256 (some capacity)).commit st.shared a.writes).db
      = st.shared.db.apply (.insertSession row) := hadmits.view
  obtain ⟨hactive, hretained⟩ := hadmits.room capacity rfl
  refine ⟨?_, ?_, row, g, hadmits.writes, ⟨hadmits.allocates.session, candidate.token, hlength, htoken,
    hinserts.tokenHash⟩, ?_, hg, hinserts.unowned⟩
  · rw [hview]
    exact (SessionDatabase.active_insertSession hadmits.free).trans hactive
  · rw [hview, SessionDatabase.retained_insertSession hadmits.free]
    exact hretained
  · have hlast : a.seen = earlier ++ [g] := hseen
    rw [hlast, List.getLast?_append]
    rfl

/-- A failed call has changed nothing in any of its steps. -/
theorem Reachable.create_fails (h : Reachable sha256 (some capacity) st) {i : Nat}
    (hfails : FailsCreate sha256 capacity i st st') :
    (sessionService sha256 (some capacity)).Throughout (fun st _ => st.threads i ≠ .idle)
      (fun a b => b.threads i ≠ a.threads i → b.shared = a.shared) st st' := by
  obtain ⟨-, hrun, log, failure, hfailed, hknown⟩ := hfails
  obtain ⟨db, hdb, hstart⟩ := h
  have hreachable : Reachable sha256 (some capacity) st' := ⟨db, hdb, hstart.trans hrun.run⟩
  have hpost := hreachable.safe.returns hfailed
  refine Concurrency.Machine.throughout_unchanged (by rw [hfailed]; exact nofun) (fun t r hmem => ?_)
    fun m => nomatch m
  rw [hfailed] at hmem
  exact hpost.elim hknown fun hnone => hnone t r hmem

/-- **Sessions are admitted within the capacity**, with columns of their own and a company that had
no dataset; a credential has its row, and a call that fails inserts none unless it says that it
does not know. -/
theorem session_admission (h : Reachable sha256 (some capacity) st) :
    (st.shared.db.demoSessions.rows.Pairwise fun a b =>
        a.id ≠ b.id ∧ a.companyCode ≠ b.companyCode ∧ a.tokenHash ≠ b.tokenHash)
    ∧ (∀ i created a, st.Ending i .create (.ok created) a →
        AdmitsWithin sha256 capacity st a created)
    ∧ (∀ i log reply, st.threads i = .running .create log (.ret (.ok reply)) →
        ∃ created row, reply = .created created ∧ row ∈ st.shared.db.demoSessions.rows
          ∧ row.Backs sha256 created)
    ∧ ∀ st' i, FailsCreate sha256 capacity i st st' →
        (sessionService sha256 (some capacity)).Throughout (fun st _ => st.threads i ≠ .idle)
          (fun a b => b.threads i ≠ a.threads i → b.shared = a.shared) st st' :=
  ⟨h.distinct, fun _ _ _ he => h.admits he, fun _ _ _ hi => h.safe.returns hi,
    fun _ _ hfails => h.create_fails hfails⟩

/-! ## A second candidate -/

instance : DecidableRel (sessionService sha256 (some capacity)).conflict :=
  inferInstanceAs (DecidableRel DemoSessionsLock.conflict)

instance (w : Unit) (env : SessionEnv) :
    Decidable ((sessionService sha256 (some capacity)).begins w env) := isTrue trivial

instance (q : SessionQuestion) (w : Unit) (a : Bool) :
    Decidable ((sessionService sha256 (some capacity)).answers q w a) := isTrue trivial

abbrev SessionStage := Stage SessionDatabase DemoSessionsLock SessionWrite SessionFailure SessionEnv
  SessionRequest SessionRequest.Result Empty SessionQuestion (fun _ => Bool) Unit SessionRequest
  SessionReply

/-- The digest of 32 bytes `0`, and that of 32 bytes `1` for all others. -/
def sampleSha256 (data : List UInt8) : List UInt8 :=
  if data = List.replicate 32 0 then
    [102, 104, 122, 173, 248, 98, 189, 119, 108, 143, 193, 139, 142, 159, 142, 32, 8, 151, 20, 133,
      110, 226, 51, 179, 144, 42, 89, 29, 13, 95, 41, 37]
  else
    [114, 205, 110, 132, 34, 196, 7, 251, 109, 9, 134, 144, 241, 19, 11, 125, 237, 126, 194, 247,
      245, 225, 211, 11, 217, 213, 33, 240, 21, 54, 55, 147]

/-- The first candidate has the company of the session that is there. -/
def sampleEnv : SessionEnv where
  candidate n :=
    if n = 0 then ⟨"5f0c1a52-7d0e-4c3a-9b1d-000000000002", List.replicate 32 0, "DEMO_0123456789ABCDE"⟩
    else ⟨"5f0c1a52-7d0e-4c3a-9b1d-000000000003", List.replicate 32 0, "DEMO_EDCBA9876543210"⟩
  fails _ := none
  beforeCommit := none
  commitFails := false

def sampleSession : SessionRow where
  id := "5f0c1a52-7d0e-4c3a-9b1d-000000000001"
  companyCode := "DEMO_0123456789ABCDE"
  tokenHash := sampleSha256 (List.replicate 32 1)
  createdAt := 0
  expiresAt := sessionLifetime
  revokedAt := none

def sampleDatabase : SessionDatabase where
  demoSessions := Relational.Table.empty.insert sampleSession
  companies := ["ACME"]
  clock := 5000

/-- `create` runs up to its `COMMIT`. -/
def sampleCreate : List (Action (sessionService sampleSha256 (some ⟨2, 2⟩))) :=
  [.spawn .create, .answer 0 fun _ => true] ++ List.replicate 16 (.advance 0 sampleEnv)

def SessionStage.creation (S : SessionStage) : Option (CreatedSession × Creation) :=
  match S.thread 0 with
  | .inTxn _ _ .create _ a => match a.rest with
      | .pure created => some (created, a)
      | _ => none
  | _ => none

theorem SessionStage.creation_ending {S : SessionStage} {created : CreatedSession} {a : Creation}
    (h : S.creation = some (created, a)) : S.state.Ending 0 .create (.ok created) a := by
  unfold creation at h
  split at h
  · rename_i req log k a' hthread
    split at h
    · rename_i hrest
      cases h
      exact ⟨⟨req, log, k, hthread⟩, hrest⟩
    · cases h
  · cases h

/-- One session is there, and one more is admitted with its second candidate. -/
theorem session_admission_second : ∃ st created a, Reachable sampleSha256 (some ⟨2, 2⟩) st
    ∧ st.shared.db.retained = 1 ∧ st.Ending 0 .create (.ok created) a
    ∧ created.session.companyCode = "DEMO_EDCBA9876543210"
    ∧ AdmitsWithin sampleSha256 ⟨2, 2⟩ st a created := by
  have hdistinct : sampleDatabase.Distinct := ⟨by decide, by decide⟩
  obtain ⟨S, hplay, hp⟩ := (Option.any_eq_true _ _).mp
    (show (play (sessionService sampleSha256 (some ⟨2, 2⟩)) sampleCreate ⟨⟨sampleDatabase, ()⟩, []⟩).any
      (fun S => S.shared.db.retained = 1 && (SessionStage.creation S).any fun (created, _) =>
        created.session.companyCode = "DEMO_EDCBA9876543210") = true by
      decide +kernel)
  rw [Bool.and_eq_true, decide_eq_true_eq] at hp
  obtain ⟨⟨created, a⟩, hcreation, hcompany⟩ := (Option.any_eq_true _ _).mp hp.2
  have hreachable : Reachable sampleSha256 (some ⟨2, 2⟩) S.state :=
    ⟨sampleDatabase, hdistinct, Concurrency.play_run hplay⟩
  have hending := SessionStage.creation_ending hcreation
  exact ⟨S.state, created, a, hreachable, hp.1, hending, of_decide_eq_true hcompany,
    (session_admission hreachable).2.1 0 created a hending⟩

end SessionSystem

end CostEngine
