import CostEngine.SessionAdmission.Uniqueness

/-! # The transactions of the session service

Under the locks of an insert its key stays free until the transaction ends, and under the
lock of the table the counts can only go down. -/

namespace CostEngine

open Relational (Table)
open Concurrency (Discipline Ends Outcome Txn)

variable {sha256 : List UInt8 → List UInt8} {capacity : Option SessionCapacity}

def sessionDiscipline (sha256 : List UInt8 → List UInt8) (capacity : Option SessionCapacity) :
    Discipline (sessionService sha256 capacity) where
  Inv g := g.db.Distinct
  le g g' := g.db.Keeps g'.db
  same := SessionDatabase.Same
  le_refl g := .refl g.db
  le_trans h h' := h.trans h'
  same_refl := SessionDatabase.Same.refl
  same_trans h h' := h.trans h'
  world_step _ h := h.elim
  config_step h hmoves := ⟨hmoves.distinct h, hmoves.keeps, fun _ hl => hmoves.same hl⟩

abbrev SessionEnded (α : Type) :=
  Outcome SessionDatabase DemoSessionsLock SessionWrite SessionFailure Unit α

variable {g fl : SessionMoment} {L : List DemoSessionsLock} {env : SessionEnv}

theorem wp_statement {s : SessionStatement} {ws : List SessionWrite} {post : SessionEnded Unit → Prop}
    (hfails : ∀ error, post ⟨[], fl, .error ⟨.pg error, false⟩, L, ws⟩)
    (hok : post ⟨[], fl, .ok (), L, ws⟩) :
    (sessionDiscipline sha256 capacity).Wp g fl L ws (env.statement s) post := by
  unfold SessionEnv.statement
  split
  · exact Discipline.wp_throw (hfails _)
  · exact Discipline.wp_pure hok

/-! ## The capacity check -/

/-- There is room for one session more. -/
structure SessionDatabase.Room (db : SessionDatabase) (capacity : SessionCapacity) : Prop where
  active : db.active < capacity.active
  retained : db.retained < capacity.retained

theorem wp_admitSession {post : SessionEnded Unit → Prop}
    (hfails : ∀ seen last error L', post ⟨seen, last, .error ⟨error, false⟩, L', []⟩)
    (hroom : ∀ seen last L', (∀ c, capacity = some c → g.db.Room c) →
      post ⟨seen, last, .ok (), L', []⟩) :
    (sessionDiscipline sha256 capacity).Wp g fl L [] (admitSession env capacity) post := by
  cases capacity with
  | none => exact Discipline.wp_pure (hroom _ _ _ fun c => nofun)
  | some c =>
      refine Discipline.wp_bind (wp_statement (fun error => hfails _ _ _ _) ?_)
      rw [Discipline.continues_ok]
      refine Discipline.wp_bind (Discipline.wp_lock fun g₁ hle₁ hl₁ => ?_)
      rw [Discipline.continues_ok]
      refine Discipline.wp_bind (wp_statement (fun error => hfails _ _ _ _) ?_)
      rw [Discipline.continues_ok]
      refine Discipline.wp_bind (Discipline.wp_select fun g₂ hle₂ _ hl₂ => ?_)
      rw [Discipline.continues_ok, Concurrency.Machine.view_nil]
      dsimp only
      split
      · exact Discipline.wp_throw (hfails _ _ _ _)
      · rename_i hcounts
        rw [not_or, Nat.not_le, Nat.not_le] at hcounts
        have hrows : g₂.db.demoSessions = g.db.demoSessions := hl₂.same _ List.mem_cons_self
        have hretained : g₂.db.retained = g.db.retained :=
          congrArg (fun sessions => sessions.rows.length) hrows
        have hactive := SessionDatabase.active_le hrows hl₂.le.clock
        refine Discipline.wp_pure (hroom _ _ _ ?_)
        rintro _ ⟨⟩
        exact ⟨Nat.lt_of_le_of_lt hactive hcounts.1, hretained ▸ hcounts.2⟩

/-! ## The insert -/

/-- An `INSERT` whose last read was of the last state in `seen`, when the transaction commits in
the state `g`. -/
structure InsertsSession (g : SessionMoment) (candidate : SessionCandidate) (hash : List UInt8)
    (seen : List SessionMoment) (L : List DemoSessionsLock) (row : SessionRow) : Prop where
  id : row.id = candidate.id
  companyCode : row.companyCode = candidate.companyCode
  tokenHash : row.tokenHash = hash
  free : g.db.taken row = false
  unowned : row.companyCode ∉ g.db.companies
  snapshot : ∃ earlier g₁, seen = earlier ++ [g₁] ∧ row.companyCode ∉ g₁.db.companies
  table : .rowExclusive ∈ L
  key : .id row.id ∈ L
  company : .companyCode row.companyCode ∈ L
  token : .tokenHash row.tokenHash ∈ L

section Insert

variable {candidate : SessionCandidate} {hash : List UInt8} {row : SessionRow}

theorem InsertsSession.after {seen : List SessionMoment} (earlier : List SessionMoment)
    (h : InsertsSession g candidate hash seen L row) :
    InsertsSession g candidate hash (earlier ++ seen) L row := by
  obtain ⟨between, g₁, rfl, hg₁⟩ := h.snapshot
  exact { h with snapshot := ⟨earlier ++ between, g₁, (List.append_assoc _ _ _).symm, hg₁⟩ }

/-- No dataset has come to a company without a session. -/
theorem unowned_of_keeps {c : String} {g₁ g₂ : SessionMoment} (h : g₁.db.Keeps g₂.db)
    (hc : c ∉ g₁.db.companies) (hnone : g₂.db.hasCompany c = false) : c ∉ g₂.db.companies := by
  intro hmem
  rcases h.companies hmem with hmem | hhas
  · exact hc hmem
  · exact Bool.false_ne_true (hnone.symm.trans hhas)

theorem wp_insertSession {post : SessionEnded (Except PgError (Option SessionRow)) → Prop}
    (hnone : ∀ seen last L', (∀ l ∈ L, l ∈ L') → post ⟨seen, last, .ok (.ok none), L', []⟩)
    (herror : ∀ seen last error L', (∀ l ∈ L, l ∈ L') →
      post ⟨seen, last, .ok (.error error), L', []⟩)
    (hrow : ∀ seen last row L', (∀ l ∈ L, l ∈ L') →
      InsertsSession g candidate hash seen L' row →
      post ⟨seen, last, .ok (.ok (some row)), L', [.insertSession row]⟩) :
    (sessionDiscipline sha256 capacity).Wp g fl L [] (insertSession candidate hash) post := by
  have hkept : ∀ {l l' : DemoSessionsLock} {L'}, l ∈ L' → l ∈ l' :: L' := List.mem_cons_of_mem _
  refine Discipline.wp_bind (Discipline.wp_lock fun g₀ hle₀ hl₀ => ?_)
  rw [Discipline.continues_ok]
  refine Discipline.wp_bind (Discipline.wp_select fun g₁ hle₁ _ hl₁ => ?_)
  rw [Discipline.continues_ok, Concurrency.Machine.view_nil]
  dsimp only
  split
  · exact Discipline.wp_pure (hnone _ _ _ fun l hl => hkept hl)
  rename_i hexists
  have hsnapshot : candidate.companyCode ∉ g₁.db.companies := by simpa using hexists
  split
  · exact Discipline.wp_pure (herror _ _ _ _ fun l hl => hkept hl)
  refine Discipline.wp_bind (Discipline.wp_lock fun g₂ hle₂ hl₂ => ?_)
  rw [Discipline.continues_ok]
  refine Discipline.wp_bind (Discipline.wp_lock fun g₃ hle₃ hl₃ => ?_)
  rw [Discipline.continues_ok]
  refine Discipline.wp_bind (Discipline.wp_lock fun g₄ hle₄ hl₄ => ?_)
  rw [Discipline.continues_ok]
  refine Discipline.wp_bind (Discipline.wp_select fun g₅ hle₅ _ hl₅ => ?_)
  rw [Discipline.continues_ok, Concurrency.Machine.view_nil]
  split
  · exact Discipline.wp_pure (hnone _ _ _ fun l hl => hkept (hkept (hkept (hkept hl))))
  rename_i hfree
  obtain ⟨hid, hcompany, hhash⟩ := SessionDatabase.taken_eq_false.mp ((Bool.not_eq_true _).mp hfree)
  refine Discipline.wp_bind (Discipline.wp_change ?_)
  rw [Discipline.continues_ok]
  have hle : g₁.db.Keeps g₅.db := hle₂.trans (hle₃.trans (hle₄.trans hle₅))
  have hunowned := unowned_of_keeps hle hsnapshot hcompany
  have hid' : g.db.demoSessions.get? candidate.id = none := (hl₅.same (.id _) (by simp)).symm.trans hid
  have hcompany' : g.db.hasCompany candidate.companyCode = false :=
    (hl₅.same (.companyCode _) (by simp)).symm.trans hcompany
  have hhash' : g.db.hasHash hash = false := (hl₅.same (.tokenHash _) (by simp)).symm.trans hhash
  refine Discipline.wp_pure (hrow _ _ _ _ (fun l hl => hkept (hkept (hkept (hkept hl)))) ?_)
  exact
    { id := rfl
      companyCode := rfl
      tokenHash := rfl
      free := SessionDatabase.taken_eq_false.mpr ⟨hid', hcompany', hhash'⟩
      unowned := unowned_of_keeps hl₅.le hunowned hcompany'
      snapshot := ⟨[g₁], g₅, rfl, hunowned⟩
      table := hkept (hkept (hkept List.mem_cons_self))
      key := hkept (hkept List.mem_cons_self)
      company := hkept List.mem_cons_self
      token := List.mem_cons_self }

end Insert

/-! ## The allocation -/

/-- What has been inserted for the credential, when the transaction commits in `g`. -/
structure AllocatesSession (sha256 : List UInt8 → List UInt8) (g : SessionMoment)
    (seen : List SessionMoment) (L : List DemoSessionsLock) (row : SessionRow)
    (created : CreatedSession) : Prop where
  inserts : ∃ candidate, InsertsSession g candidate (sha256 candidate.token) seen L row
    ∧ candidate.token.length = 32 ∧ created.token = Base64Url.encode candidate.token
  session : created.session = row.context

theorem AllocatesSession.after {seen : List SessionMoment} {row : SessionRow}
    {created : CreatedSession} (earlier : List SessionMoment)
    (h : AllocatesSession sha256 g seen L row created) :
    AllocatesSession sha256 g (earlier ++ seen) L row created := by
  obtain ⟨⟨candidate, hinserts, htoken⟩, hsession⟩ := h
  exact ⟨⟨candidate, hinserts.after earlier, htoken⟩, hsession⟩

/-- The rounds of the loop, by induction on the attempts that are left. -/
theorem wp_allocateSession {attempts : List Nat} {aborted : Bool}
    {post : SessionEnded CreatedSession → Prop}
    (hfails : ∀ seen last error L', post ⟨seen, last, .error ⟨error, false⟩, L', []⟩)
    (hpost : ∀ seen last row created L', (∀ l ∈ L, l ∈ L') →
      AllocatesSession sha256 g seen L' row created →
      post ⟨seen, last, .ok created, L', [.insertSession row]⟩) :
    (sessionDiscipline sha256 capacity).Wp g fl L []
      (allocateSession sha256 env attempts aborted) post := by
  induction attempts generalizing fl L aborted post with
  | nil => exact Discipline.wp_throw (hfails _ _ _ _)
  | cons attempt attempts ih =>
      unfold allocateSession
      dsimp only
      split
      · exact Discipline.wp_throw (hfails _ _ _ _)
      rename_i hlength
      have hagain : ∀ {aborted fl L'} (seen : List SessionMoment), (∀ l ∈ L, l ∈ L') →
          (sessionDiscipline sha256 capacity).Wp g fl L' []
            (allocateSession sha256 env attempts aborted) fun o => post (o.after seen) := by
        intro aborted fl L' seen hL
        refine ih (fun _ _ _ _ => hfails _ _ _ _) fun seen' last row created L'' hL'' h => ?_
        exact hpost _ _ _ _ _ (fun l hl => hL'' l (hL l hl)) (h.after seen)
      have herror : ∀ {seen : List SessionMoment} {last} {error : PgError} {L'}, (∀ l ∈ L, l ∈ L') →
          (sessionDiscipline sha256 capacity).Wp g last L' []
            (if error.isCollision then allocateSession sha256 env attempts true
              else SessionTx.throw (.error "Demo session persistence failed"))
            fun o => post (o.after seen) := by
        intro seen last error L' hL
        split
        · exact hagain seen hL
        · exact Discipline.wp_throw (hfails _ _ _ _)
      refine Discipline.wp_bind ?_
      unfold queryInsert
      split
      · exact Discipline.wp_pure (herror fun l hl => hl)
      split
      · exact Discipline.wp_pure (herror fun l hl => hl)
      refine wp_insertSession (fun seen last L' hL => ?_) (fun seen last error L' hL => ?_)
        fun seen last row L' hL h => ?_
      · rw [Discipline.continues_ok]
        exact hagain seen hL
      · exact herror hL
      · rw [Discipline.continues_ok]
        refine Discipline.wp_pure (hpost _ _ _ _ _ hL ?_)
        have hseen : seen ++ [] = seen := List.append_nil seen
        show AllocatesSession sha256 g (seen ++ []) L' row _
        rw [hseen]
        exact ⟨⟨_, h, not_not.mp hlength, rfl⟩, rfl⟩

/-! ## The transactions -/

/-- A session that `create` is about to commit. -/
structure AdmitsSession (sha256 : List UInt8 → List UInt8) (capacity : Option SessionCapacity)
    (o : SessionEnded CreatedSession) (g : SessionMoment) (row : SessionRow)
    (created : CreatedSession) : Prop where
  writes : o.writes = [.insertSession row]
  allocates : AllocatesSession sha256 g o.seen o.locks row created
  room : ∀ c, capacity = some c → g.db.Room c

theorem wp_createSessionTx : (sessionDiscipline sha256 capacity).Wp g fl [] []
    (createSessionTx sha256 capacity env) fun o =>
      ∀ created, o.result = .ok created → ∃ row, AdmitsSession sha256 capacity o g row created := by
  refine Discipline.wp_bind (wp_statement (fun error => nofun) ?_)
  rw [Discipline.continues_ok]
  refine Discipline.wp_bind (wp_statement (fun error => nofun) ?_)
  rw [Discipline.continues_ok]
  refine Discipline.wp_bind (wp_statement (fun error => nofun) ?_)
  rw [Discipline.continues_ok]
  refine Discipline.wp_bind (wp_admitSession (fun _ _ _ _ => nofun) ?_)
  intro seen last L hroom
  rw [Discipline.continues_ok]
  refine Discipline.wp_bind (wp_allocateSession (fun _ _ _ _ => nofun) ?_)
  intro seen' last' row created L' _ h
  rw [Discipline.continues_ok]
  split
  · exact Discipline.wp_throw nofun
  split
  · exact Discipline.wp_throw nofun
  refine Discipline.wp_pure ?_
  rintro _ ⟨⟩
  have hseen : seen' ++ [] = seen' := List.append_nil seen'
  refine ⟨row, rfl, ?_, hroom⟩
  show AllocatesSession sha256 g (seen ++ (seen' ++ [])) L' row created
  rw [hseen]
  exact h.after seen

/-- What `revoke` is about to commit. -/
structure RevokesSession (o : SessionEnded Unit) (g : SessionMoment) (row : SessionRow)
    (now : Time) : Prop where
  writes : o.writes = [.putSession (row.revoke now)]
  found : g.db.demoSessions.get? row.id = some row
  table : .rowExclusive ∈ o.locks
  key : .id row.id ∈ o.locks

theorem wp_revokeSessionTx {sessionId : Uuid} : (sessionDiscipline sha256 capacity).Wp g fl [] []
    (revokeSessionTx sessionId env) fun o =>
      o.result = .ok () → o.writes = [] ∨ ∃ row now, RevokesSession o g row now := by
  refine Discipline.wp_bind (wp_statement (fun error => nofun) ?_)
  rw [Discipline.continues_ok]
  refine Discipline.wp_bind (Discipline.wp_lock fun g₁ hle₁ hl₁ => ?_)
  rw [Discipline.continues_ok]
  refine Discipline.wp_bind (Discipline.wp_select fun g₂ hle₂ _ hl₂ => ?_)
  rw [Discipline.continues_ok, Concurrency.Machine.view_nil]
  split
  · exact Discipline.wp_pure fun _ => .inl rfl
  refine Discipline.wp_bind (Discipline.wp_lock fun g₃ hle₃ hl₃ => ?_)
  rw [Discipline.continues_ok]
  refine Discipline.wp_bind (Discipline.wp_select fun g₄ hle₄ _ hl₄ => ?_)
  rw [Discipline.continues_ok, Concurrency.Machine.view_nil]
  split
  · exact Discipline.wp_pure fun _ => .inl rfl
  rename_i row hrow
  refine Discipline.wp_change fun _ => .inr ⟨row, _, rfl, ?_, ?_, ?_⟩
  · rw [Table.get?_key hrow, ← hl₄.same (.id sessionId) List.mem_cons_self]
    exact hrow
  · exact List.mem_cons_of_mem _ List.mem_cons_self
  · exact Table.get?_key hrow ▸ List.mem_cons_self

def SessionSpec (sha256 : List UInt8 → List UInt8) (capacity : Option SessionCapacity) :
    (t : SessionRequest) → SessionEnv → SessionEnded t.Result → SessionMoment → Prop
  | .create, _, o, g =>
      ∀ created, o.result = .ok created → ∃ row, AdmitsSession sha256 capacity o g row created
  | .revoke _, _, o, g => o.result = .ok () → o.writes = [] ∨ ∃ row now, RevokesSession o g row now

section Ends

variable {o : SessionEnded CreatedSession} {row : SessionRow} {created : CreatedSession}

theorem AdmitsSession.free (h : AdmitsSession sha256 capacity o g row created) :
    g.db.taken row = false := by
  obtain ⟨candidate, hinserts, -⟩ := h.allocates.inserts
  exact hinserts.free

/-- The rows after the commit. -/
theorem AdmitsSession.view (h : AdmitsSession sha256 capacity o g row created) :
    (sessionService sha256 capacity).view g.db o.writes = g.db.apply (.insertSession row) := by
  rw [h.writes]
  rfl

theorem ends_createSessionTx {o : SessionEnded CreatedSession} (hinv : g.db.Distinct)
    (hspec : SessionSpec sha256 capacity .create env o g) :
    Ends (sessionDiscipline sha256 capacity) (SessionSpec sha256 capacity) .create env o g where
  spec := hspec
  inv x hx := by
    obtain ⟨row, h⟩ := hspec x hx
    show ((sessionService sha256 capacity).view g.db o.writes).Distinct
    rw [h.view]
    exact hinv.inserted h.free
  le x hx := by
    obtain ⟨row, h⟩ := hspec x hx
    show g.db.Keeps ((sessionService sha256 capacity).view g.db o.writes)
    rw [h.view]
    exact .inserted h.free
  same x hx l hfree := by
    obtain ⟨row, h⟩ := hspec x hx
    rw [h.view]
    obtain ⟨candidate, hinserts, -⟩ := h.allocates.inserts
    refine .inserted h.free ?_ ?_ ?_ ?_ <;> rintro rfl
    · exact hfree _ hinserts.table trivial
    · exact hfree _ hinserts.key rfl
    · exact hfree _ hinserts.company rfl
    · exact hfree _ hinserts.token rfl

theorem ends_revokeSessionTx {o : SessionEnded Unit} {sessionId : Uuid} (hinv : g.db.Distinct)
    (hspec : SessionSpec sha256 capacity (.revoke sessionId) env o g) :
    Ends (sessionDiscipline sha256 capacity) (SessionSpec sha256 capacity) (.revoke sessionId) env o g := by
  -- The rows after the commit are those before it with one session revoked, if any.
  have hcases : o.result = .ok () → (sessionService sha256 capacity).view g.db o.writes = g.db
      ∨ ∃ row now, RevokesSession o g row now ∧ (sessionService sha256 capacity).view g.db o.writes
        = g.db.apply (.putSession (row.revoke now)) := by
    intro hok
    rcases hspec hok with hnone | ⟨row, now, h⟩
    · exact .inl (by rw [hnone]; rfl)
    · exact .inr ⟨row, now, h, by rw [h.writes]; rfl⟩
  refine ⟨hspec, fun x hx => ?_, fun x hx => ?_, fun x hx l hfree => ?_⟩
  · show ((sessionService sha256 capacity).view g.db o.writes).Distinct
    rcases hcases hx with hview | ⟨row, now, h, hview⟩
    · rwa [hview]
    · rw [hview]
      exact hinv.revoked (SessionDatabase.rows_put_revoke h.found)
  · show g.db.Keeps ((sessionService sha256 capacity).view g.db o.writes)
    rcases hcases hx with hview | ⟨row, now, h, hview⟩
    · rw [hview]
      exact .refl _
    · rw [hview]
      exact .revoked (SessionDatabase.rows_put_revoke h.found) (Nat.le_refl _) fun c hc => hc
  · rcases hcases hx with hview | ⟨row, now, h, hview⟩
    · rw [hview]
      exact .refl l _
    · rw [hview]
      refine .revoked (SessionDatabase.rows_put_revoke h.found) ?_ fun r hr hid => ?_
      · rintro rfl
        exact hfree _ h.table trivial
      · rintro rfl
        exact hfree _ h.key (by rw [of_decide_eq_true hid]; rfl)

end Ends

/-! ## Calls -/

/-- The row that the credential stands for. -/
structure SessionRow.Backs (sha256 : List UInt8 → List UInt8) (row : SessionRow)
    (created : CreatedSession) : Prop where
  session : created.session = row.context
  token : ∃ token : List UInt8, token.length = 32 ∧ created.token = Base64Url.encode token
    ∧ row.tokenHash = sha256 token

abbrev SessionEvent := Concurrency.Event SessionFailure SessionRequest SessionRequest.Result Empty
  SessionQuestion (fun _ => Bool)

/-- A credential has its row, and a call that fails has committed nothing or says that it does not
know. -/
def SessionPost (sha256 : List UInt8 → List UInt8) : SessionRequest → List SessionEvent →
    Except SessionFailure SessionReply → SessionMoment → Prop
  | .create, _, .ok reply, g => ∃ created row, reply = .created created
      ∧ row ∈ g.db.demoSessions.rows ∧ row.Backs sha256 created
  | .create, log, .error failure, _ => failure.error = createOutcomeUnknown
      ∨ ∀ t r, .ended t (.ok r) ∉ log
  | .revoke _, _, _, _ => True

theorem SessionPost.later {request : SessionRequest} {log : List SessionEvent}
    {r : Except SessionFailure SessionReply} {g g' : SessionMoment}
    (h : SessionPost sha256 request log r g) (hle : g.db.Keeps g'.db) :
    SessionPost sha256 request log r g' := by
  cases request with
  | revoke sessionId => trivial
  | create =>
      cases r with
      | error failure => exact h
      | ok reply =>
          obtain ⟨created, row, hreply, hrow, hsession, htoken⟩ := h
          obtain ⟨revokedAt, hrow'⟩ := hle.sessions hrow
          exact ⟨created, _, hreply, hrow', hsession, htoken⟩

theorem good_createSession : Concurrency.Call.Good (sessionDiscipline sha256 capacity)
    (SessionSpec sha256 capacity) (fun _ _ => False)
    (fun log r g => SessionPost sha256 .create log (r.map .created) g) [] createSession g := by
  refine Concurrency.Call.Good.bind ?_
  intro g₁ connected _ _
  cases connected with
  | false => exact .inr fun t r hmem => by simp at hmem
  | true =>
      show Concurrency.Call.Good _ _ _ _ _ (Concurrency.Call.bind (Concurrency.Call.tryCatch
        (Concurrency.Call.transaction SessionRequest.create) _) _) _
      refine Concurrency.Call.Good.bind (Concurrency.Call.Good.tryCatch ?_)
      intro g₀ g' env o _ _ hl hexec
      have hspec := wp_createSessionTx o hexec
      refine ⟨ends_createSessionTx hl.inv hspec, ?_⟩
      cases hresult : o.result with
      | error failure =>
          refine .inr fun t r hmem => ?_
          rw [List.mem_append, List.mem_singleton] at hmem
          rcases hmem with hmem | hmem
          · cases List.mem_singleton.mp hmem
          · cases hmem
      | ok created =>
          intro g₂ committed hl₂ _
          cases committed with
          | false => exact .inl rfl
          | true =>
              obtain ⟨row, h⟩ := hspec created hresult
              obtain ⟨candidate, hinserts, hlength, htoken⟩ := h.allocates.inserts
              have hafter : ((sessionService sha256 capacity).after o g').db
                  = g'.db.apply (.insertSession row) := by
                rw [← h.view, Concurrency.Machine.after, hresult]
                rfl
              have hrow : row ∈ ((sessionService sha256 capacity).after o g').db.demoSessions.rows := by
                rw [hafter, SessionDatabase.rows_insertSession h.free]
                exact List.mem_append_right _ List.mem_cons_self
              have hpost : SessionPost sha256 .create [] (.ok (.created created))
                  ((sessionService sha256 capacity).after o g') :=
                ⟨created, row, rfl, hrow, h.allocates.session,
                  candidate.token, hlength, htoken, hinserts.tokenHash⟩
              exact hpost.later hl₂.le

theorem good_serveSession {request : SessionRequest} :
    Concurrency.Call.Good (sessionDiscipline sha256 capacity) (SessionSpec sha256 capacity)
      (fun _ _ => False) (SessionPost sha256 request) [] (serveSession request) g := by
  cases request with
  | revoke sessionId =>
      intro g₀ g' env o _ _ hl hexec
      refine ⟨ends_revokeSessionTx hl.inv (wp_revokeSessionTx o hexec), ?_⟩
      cases o.result <;> trivial
  | create =>
      refine Concurrency.Call.Good.bind (good_createSession.weaken fun log r g hpost => ?_)
      cases r <;> exact hpost

/-! ## Runs -/

/-- A state of a run that begins with rows whose columns are unique and with nobody at work. -/
def SessionSystem.Reachable (sha256 : List UInt8 → List UInt8) (capacity : Option SessionCapacity)
    (st : SessionSystem) : Prop :=
  ∃ db : SessionDatabase, db.Distinct ∧ (sessionService sha256 capacity).Run (.quiet ⟨db, ()⟩) st

theorem SessionSystem.Reachable.safe {st : SessionSystem}
    (h : SessionSystem.Reachable sha256 capacity st) :
    Concurrency.Safe (sessionDiscipline sha256 capacity) (SessionSpec sha256 capacity)
      (fun _ _ => False) (SessionPost sha256) st := by
  obtain ⟨db, hdb, hrun⟩ := h
  have hinv : (sessionDiscipline sha256 capacity).Inv ⟨db, ()⟩ := hdb
  exact Concurrency.run_safe (fun _ _ _ _ _ hpost hl => hpost.later hl.le)
    (fun _ _ _ => good_serveSession) (Concurrency.quiet_safe hinv) hrun

end CostEngine
