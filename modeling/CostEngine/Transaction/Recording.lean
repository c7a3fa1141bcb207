import CostEngine.Transaction.Dispatch

/-! # `recordDispatchOutcome`

An answer may be recorded long after it was given: the attempt may have been accepted,
rejected, finished or replaced by then. `Store.Overlooked` is the one combination that the
branches of the source do not foresee. -/

namespace CostEngine

open Relational (Table)
open Concurrency (Outcome Txn Discipline)

/-! ### What an answer says of the identity -/

/-- What an answer of an honest executor says about the identity. -/
def World.Tells (w : World) (identity : ExecutionIdentity) : DispatchResult → Prop
  | .accepted | .alreadyExists => (w.executor identity).runExists = true
  | .rejected _ => w.executor identity = .rejected
  | .unknown _ => True

theorem World.Tells.grows {w w' : World} {identity : ExecutionIdentity}
    {outcome : DispatchResult} (h : w.Tells identity outcome) (hw : w.Grows w') :
    w'.Tells identity outcome := by
  cases outcome with
  | accepted => exact ExternalExecution.runExists_stays (hw.executor identity) h
  | alreadyExists => exact ExternalExecution.runExists_stays (hw.executor identity) h
  | rejected message =>
      have h : w.executor identity = .rejected := h
      exact (ExternalExecution.settled_stays (hw.executor identity) (h ▸ .rejected)).trans h
  | unknown message => trivial

/-! ### Answers that come too late -/

/-- The attempt is recorded as rejected, and the answer is `UNKNOWN`, or its job or its
version have moved on since. -/
def Store.Overlooked (s : Store) (c : DispatchCalculationCommand) (outcome : DispatchResult) :
    Prop :=
  (∃ a, s.executionAttempts.get? c.executionAttemptId = some a
      ∧ a.status = .dispatchFailed) ∧
    ((∃ message, outcome = .unknown message) ∨ ¬ s.Building c.datasetVersionId ∨
      ∃ j, s.calculationJobs.get? c.jobId = some j
        ∧ (j.status = .running ∨ j.status = .succeeded))

/-- The answer says that the identity has a run. -/
def DispatchResult.confirms : DispatchResult → Bool
  | .accepted | .alreadyExists => true
  | .rejected _ | .unknown _ => false

/-- The answer confirms the attempt, or somebody has confirmed it before. -/
def Store.Confirms (s : Store) (c : DispatchCalculationCommand) (outcome : DispatchResult) :
    Prop :=
  ∃ a, s.executionAttempts.get? c.executionAttemptId = some a ∧
    (a.status = .accepted ∨ outcome.confirms = true ∧ a.status ≠ .dispatchFailed)

/-- A result that reports the run of the identity, as accepted or with its final status. -/
def CalculationJobRunResult.IsConfirmed (r : CalculationJobRunResult) : Prop :=
  r.IsAccepted ∨ (r.attemptStatus = .succeeded ∨ r.attemptStatus = .failed)
    ∧ r.dispatchOutcome ≠ .unknown

/-! ## The branches -/

/-! ### The guard -/

section Branches

variable {honours : Prop} {g fl : Moment} {L : List RowLock} {env : TxEnv}
variable {c : DispatchCalculationCommand} {context : LockedCalculationJobDispatchContext}
variable {j : CalculationJob} {a : ExecutionAttempt}
variable {post : Ended RecordOutcomeResult → Prop}
variable (hinv : Invariant honours g) (hj : g.db.calculationJobs.get? j.id = some j)
variable (ha : g.db.executionAttempts.get? a.id = some a) (haj : a.calculationJobId = j.id)
variable (hL : Row.Held (.calculationJob j.id) L) (hLa : Row.Held (.executionAttempt a.id) L)
variable (hid : context.jobId = j.id) (hstatus : context.jobStatus = j.status)
include hinv hj ha haj hstatus

/-- The guard that every answer passes as long as the attempt is `DISPATCHING`. -/
theorem dispatching_open (hdispatching : a.status = .dispatching) :
    (j.status = .pending ∨ j.status = .failed) ∧ ¬ (a.asLocked.status ≠ .dispatching
      ∨ (context.jobStatus ≠ .pending ∧ context.jobStatus ≠ .failed)) := by
  -- The attempt waits for its answer, and then its job waits too.
  have hmem : a ∈ g.db.attemptsOf j.id := haj ▸ Store.mem_attemptsOf_of_get? ha
  have hwaits := (hinv.consistent.history _ j hj).waiting hmem (.inr hdispatching)
  refine ⟨hwaits, ?_⟩
  rw [hstatus]
  rintro (h | ⟨h, h'⟩)
  · exact h hdispatching
  · exact hwaits.elim h h'

include hL hid

/-! ### A final attempt -/

/-- A final attempt agrees with its job, unless it has been replaced. -/
theorem wp_recordTerminal {kind : RunDispatchOutcome} {datasetStatus : DatasetVersionStatus}
    (hterminal : a.status = .succeeded ∨ a.status = .failed)
    (hpost : ∀ seen last r, r.attemptStatus = a.status → r.dispatchOutcome = kind →
      post ⟨seen, last, .ok (.result r), L, []⟩) :
    (discipline honours).Wp g fl L []
      (recordTerminal c kind context a.asLocked datasetStatus) post := by
  have hmem : a ∈ g.db.attemptsOf j.id := haj ▸ Store.mem_attemptsOf_of_get? ha
  refine Discipline.wp_bind (Discipline.wp_select fun g₁ _ hinv₁ hl₁ => ?_)
  rw [Discipline.continues_ok, if_neg]
  · exact Discipline.wp_pure (hpost _ _ _ rfl rfl)
  · -- Nothing newer than a final attempt: the job has its status.
    rintro ⟨hnewer, hne⟩
    have hsame : g₁.db.hasNewerExecutionAttempt j.id a.attemptNumber
        = g.db.hasNewerExecutionAttempt j.id a.attemptNumber := by
      unfold Store.hasNewerExecutionAttempt
      rw [(later_same hl₁ hL).2.1]
    rw [hid] at hnewer
    obtain ⟨init, hinit⟩ := hinv.consistent.newest_of_not_newer hj hmem (hsame.symm.trans hnewer)
    have hh := hinv.consistent.history _ j hj
    rw [hinit] at hh
    exact hne (hstatus ▸ hh.terminal_status hterminal)

include hLa

/-! ### The three answers -/

theorem wp_recordConfirmation {kind : RunDispatchOutcome}
    (hdispatching : a.status = .dispatching)
    (hagrees : honours → (g.world.executor a.identity).runExists = true)
    (hpost : ∀ seen last r L' ws', r.IsAccepted →
      (ws'.foldl Store.apply g.db).executionAttempts
        = g.db.executionAttempts.put (a.acceptedByDispatch env.now) →
      Commit honours env.now L' g (ws'.foldl Store.apply g.db) →
      post ⟨seen, last, .ok (.result r), L', ws'⟩) :
    (discipline honours).Wp g fl L []
      (recordConfirmation env c kind context a.asLocked) post := by
  obtain ⟨hwaits, hopen⟩ := dispatching_open hinv hj ha haj hstatus hdispatching
  unfold recordConfirmation
  rw [if_neg hopen]
  refine Discipline.wp_bind (wp_updateAttempt hLa ha hdispatching fun seen₁ last₁ _ _ => ?_)
  rw [Discipline.continues_ok]
  rw [hid]
  -- The job waits, as the guarded update expects.
  refine Discipline.wp_bind (wp_updateJob hL.cons hj ?_ fun seen₂ last₂ _ _ => ?_)
  · simpa using hwaits
  rw [Discipline.continues_ok, if_neg (by simp)]
  refine Discipline.wp_pure (hpost _ _ _ _ _ ⟨rfl, rfl⟩ rfl ?_)
  have hstep : AttemptStepAt env.now a (a.acceptedByDispatch env.now) :=
    .acceptedByDispatch a hdispatching
  refine Commit.of_put hinv (Store.Change.moveAttempt hinv.consistent ha hstep hj haj
    (.inr (.running j env.now hwaits)) rfl ?_ ?_ ?_) rfl hagrees
  · -- The job follows its newest attempt.
    intro init _
    rw [jobStatusOf_append]
    rfl
  · exact hLa.cons.cons
  · exact hL.cons.cons

omit hid in
theorem wp_recordRejection {message : String} (hdispatching : a.status = .dispatching)
    (hagrees : honours → g.world.executor a.identity = .rejected)
    (hpost : ∀ seen last L' ws', (ws'.foldl Store.apply g.db).executionAttempts
        = g.db.executionAttempts.put (a.dispatchFailed env.now message) →
      Commit honours env.now L' g (ws'.foldl Store.apply g.db) →
      post ⟨seen, last, .ok .rejected, L', ws'⟩) :
    (discipline honours).Wp g fl L [] (recordRejection env message context a.asLocked) post := by
  obtain ⟨hwaits, hopen⟩ := dispatching_open hinv hj ha haj hstatus hdispatching
  -- The attempt has not been recorded as rejected before.
  have hnot : ¬ (a.asLocked.status = .dispatchFailed
      ∧ (context.jobStatus = .pending ∨ context.jobStatus = .failed)) := by
    rintro ⟨h, -⟩
    cases hdispatching.symm.trans h
  unfold recordRejection
  rw [if_neg hnot, if_neg hopen]
  refine Discipline.wp_bind (wp_updateAttempt hLa ha hdispatching fun seen₁ last₁ _ _ => ?_)
  rw [Discipline.continues_ok, if_pos rfl]
  refine Discipline.wp_pure (hpost _ _ _ _ rfl ?_)
  have hstep : AttemptStepAt env.now a (a.dispatchFailed env.now message) :=
    .dispatchFailed a message hdispatching
  -- The job keeps its status: only the attempt moves.
  exact Commit.of_put hinv (Store.Change.moveAttemptOnly hinv.consistent ha hstep (haj.symm ▸ hj)
    (.inr hdispatching) (.inr rfl) hLa.cons (haj.symm ▸ hL.cons)) rfl hagrees

omit hid in
theorem wp_recordUnknown {message : String} (hdispatching : a.status = .dispatching)
    (hpost : ∀ seen last r L' ws', r.attemptStatus = .dispatching →
      (ws'.foldl Store.apply g.db).executionAttempts
        = g.db.executionAttempts.put (a.diagnosed message) →
      Commit honours env.now L' g (ws'.foldl Store.apply g.db) →
      post ⟨seen, last, .ok (.result r), L', ws'⟩) :
    (discipline honours).Wp g fl L [] (recordUnknown c message context a.asLocked) post := by
  obtain ⟨hwaits, hopen⟩ := dispatching_open hinv hj ha haj hstatus hdispatching
  unfold recordUnknown
  rw [if_neg hopen]
  refine Discipline.wp_bind (wp_updateAttempt hLa ha hdispatching fun seen₁ last₁ _ _ => ?_)
  rw [Discipline.continues_ok, if_pos rfl]
  refine Discipline.wp_pure (hpost _ _ _ _ _ rfl rfl ?_)
  have hstep : AttemptStepAt env.now a (a.diagnosed message) := .diagnosed a message hdispatching
  refine Commit.of_put hinv (Store.Change.moveAttemptOnly hinv.consistent ha hstep
    (haj.symm ▸ hj) (.inr hdispatching) (.inl hdispatching) hLa.cons (haj.symm ▸ hL.cons)) rfl
    fun _ => ?_
  -- An executor that does not know says nothing about the identity.
  rw [show (a.diagnosed message).status = .dispatching from hdispatching]
  trivial

end Branches

/-! ## The transaction -/

variable {honours : Prop} {g fl : Moment}

/-! ### What the transaction leaves -/

structure RecordOutcomeSpec (honours : Prop) (c : DispatchCalculationCommand)
    (outcome : DispatchResult) (env : TxEnv) (g : Moment) (o : Ended RecordOutcomeResult) :
    Prop where
  commit : ∀ r, o.result = .ok r → Commit honours env.now o.locks g (o.writes.foldl Store.apply g.db)
  late : ∀ a, g.db.executionAttempts.get? c.executionAttemptId = some a →
    a.status ≠ .dispatching → o.writes = []
  error : ∀ e, o.result = .error e → ∃ message, e = .calculationStateInvariant message
  raises : honours → ((∃ e, o.result = .error e) ↔ g.db.Overlooked c outcome)
  confirms : g.db.Confirms c outcome ↔ ∃ r, o.result = .ok (.result r) ∧ r.IsConfirmed
  rejects : ∀ id a, (o.writes.foldl Store.apply g.db).executionAttempts.get? id = some a →
    a.status = .dispatchFailed → g.db.executionAttempts.get? id = some a
      ∨ id = c.executionAttemptId ∧ ∃ message, outcome = .rejected message
  others : ∀ r, o.result = .ok r → ∀ id, id ≠ c.executionAttemptId →
    (o.writes.foldl Store.apply g.db).executionAttempts.get? id = g.db.executionAttempts.get? id

theorem wp_recordDispatchOutcome {c : DispatchCalculationCommand} {outcome : DispatchResult}
    {env : TxEnv} (hc : fl.db.Dispatched c) (hinvfl : Invariant honours fl)
    (htells : honours → fl.world.Tells c.identity outcome) :
    (discipline honours).Wp g fl [] [] (recordDispatchOutcome c outcome env)
      (RecordOutcomeSpec honours c outcome env g) := by
  obtain ⟨a₀, ha₀, -⟩ := hc.attempt
  obtain ⟨j₀, -, hj₀, -⟩ := hc.job
  refine Discipline.wp_bind (wp_lockCalculationJobDispatchContext (Table.row_ne_none hj₀) ?_)
  intro g₁ last₁ j v₁ ct hle₁ hinv₁ hl₁ hv₁ hle₂ hl₂ hj hct
  rw [Discipline.continues_ok]
  -- The rows of a dispatched attempt are there, so both locks find them.
  dsimp only
  have hc₂ : last₁.db.Dispatched c :=
    hc.grows hinvfl.consistent.references (hle₁.trans hle₂).db
  refine Discipline.wp_bind (wp_lockExecutionAttempt ?_ ?_)
  · obtain ⟨a₂, ha₂, -⟩ := hc₂.attempt
    exact Table.row_ne_none ha₂
  intro seen₃ last₃ a hle₃ hl₃ ha
  rw [Discipline.continues_ok]
  dsimp only [ExecutionAttempt.asLocked]
  have hinv : Invariant honours g := hl₂.inv
  have hgfl : Moment.Grows fl g := hle₁.trans hl₁.le
  have hcg : g.db.Dispatched c := hc.grows hinvfl.consistent.references hgfl.db
  obtain ⟨a', ha', haj, hnumber, hdag, hrun, hprepared⟩ := hcg.attempt
  obtain rfl : a = a' := Option.some.inj (ha.symm.trans ha')
  obtain ⟨j', -, hj', hjv, hjt, hjr, -, -⟩ := hcg.job
  obtain rfl : j = j' := Option.some.inj (hj.symm.trans hj')
  -- The command repeats columns that never change.
  rw [if_neg (not_not.mpr haj), if_neg (by simp [hdag, hrun, hnumber, hjv, hjt, hjr])]
  have hjid : j.id = c.jobId := Table.get?_key hj
  have haid : a.id = c.executionAttemptId := Table.get?_key ha
  rw [← hjid] at haj
  have hjg : g.db.calculationJobs.get? j.id = some j := hjid.symm ▸ hj
  have hag : g.db.executionAttempts.get? a.id = some a := haid.symm ▸ ha
  have hmem : a ∈ g.db.attemptsOf j.id := haj ▸ Store.mem_attemptsOf_of_get? ha
  have hh := hinv.consistent.history _ j hjg
  have htells : honours → g.world.Tells a.identity outcome := by
    intro hho
    have hi : a.identity = c.identity := by
      simp [ExecutionAttempt.identity, DispatchCalculationCommand.identity, hdag, hrun]
    rw [hi]
    exact (htells hho).grows hgfl.world
  have hagrees : honours → a.status.Agrees (g.world.executor a.identity) :=
    fun hho => hinv.agrees hho _ a ha
  -- Late answers in terms of the rows that are locked.
  obtain ⟨v, hv, hvok, -⟩ := hinv.consistent.versionOf hj
  have hover : g.db.Overlooked c outcome ↔ a.status = .dispatchFailed ∧
      ((∃ message, outcome = .unknown message) ∨ v.status ≠ .building ∨
        j.status = .running ∨ j.status = .succeeded) := by
    simp [Store.Overlooked, Store.Building, ha, hj, ← hjv, hv]
  have hconfirms : g.db.Confirms c outcome ↔
      a.status = .accepted ∨ outcome.confirms = true ∧ a.status ≠ .dispatchFailed := by
    simp [Store.Confirms, ha]
  -- The three ways to end.
  have hfail : ∀ seen last L message, (honours → g.db.Overlooked c outcome) →
      ¬ g.db.Confirms c outcome → RecordOutcomeSpec honours c outcome env g
        ⟨seen, last, .error (.calculationStateInvariant message), L, []⟩ := by
    intro seen last L message ho hnot
    refine ⟨fun r hr => (by cases hr), fun _ _ _ => rfl,
      fun e he => ⟨message, (Except.error.inj he).symm⟩,
      fun hho => ⟨fun _ => ho hho, fun _ => ⟨_, rfl⟩⟩, ⟨fun h => absurd h hnot, ?_⟩,
      fun _ _ ha _ => .inl ha, fun _ _ _ _ => rfl⟩
    rintro ⟨r, hr, -⟩
    cases hr
  have hdone : ∀ seen last L r, (honours → ¬ g.db.Overlooked c outcome) →
      (g.db.Confirms c outcome ↔ ∃ r', r = .result r' ∧ r'.IsConfirmed) →
      RecordOutcomeSpec honours c outcome env g ⟨seen, last, .ok r, L, []⟩ := by
    intro seen last L r ho hr
    refine ⟨fun r hr => .refl hinv, fun _ _ _ => rfl, fun e he => (by cases he),
      fun hho => ⟨?_, fun h => absurd h (ho hho)⟩, by simpa using hr, fun _ _ ha _ => .inl ha,
      fun _ _ _ _ => rfl⟩
    rintro ⟨e, he⟩
    cases he
  have hmoves : a.status = .dispatching → ∀ seen last L r ws (b : ExecutionAttempt), b.id = a.id →
      (b.status = .dispatchFailed → ∃ message, outcome = .rejected message) →
      (outcome.confirms = true ↔ ∃ r', r = .result r' ∧ r'.IsConfirmed) →
      (ws.foldl Store.apply g.db).executionAttempts = g.db.executionAttempts.put b →
      Commit honours env.now L g (ws.foldl Store.apply g.db) →
      RecordOutcomeSpec honours c outcome env g ⟨seen, last, .ok r, L, ws⟩ := by
    intro hs seen last L r ws b hb hbs hr hput hcommit
    refine ⟨fun r hr => hcommit, fun a'' ha'' hs' => ?_, fun e he => (by cases he), fun hho => ?_,
      ?_, fun id a' ha' hs' => ?_, fun _ _ id hne => ?_⟩
    · obtain rfl := Option.some.inj (ha.symm.trans ha'')
      exact absurd hs hs'
    · rw [hover, hs]
      exact ⟨fun ho => (by obtain ⟨e, he⟩ := ho; cases he), fun h => by cases h.1⟩
    · rw [hconfirms, hs]
      simpa using hr
    · dsimp only at ha'
      rw [hput] at ha'
      -- the row that was put is that of the attempt of the command
      rcases Table.of_get?_put ha' with hold | rfl
      · exact .inl hold
      · exact .inr ⟨(Table.get?_key ha').symm.trans (hb.trans haid), hbs hs'⟩
    · dsimp only
      rw [hput, Table.get?_put, if_neg fun he => hne (he.symm.trans (hb.trans haid))]
  have hLj : Row.Held (.calculationJob j.id) [.forUpdate (.executionAttempt c.executionAttemptId),
      .forUpdate (.calculationJob c.jobId)] := hjid ▸ Row.held_forUpdate.cons
  have hLa : Row.Held (.executionAttempt a.id) [.forUpdate (.executionAttempt
      c.executionAttemptId), .forUpdate (.calculationJob c.jobId)] := haid ▸ Row.held_forUpdate
  refine Discipline.wp_bind (Discipline.wp_select fun g₄ hle₄ hinv₄ hl₄ => ?_)
  rw [Discipline.continues_ok]
  refine Discipline.wp_bind (Discipline.wp_select fun g₅ hle₅ hinv₅ hl₅ => ?_)
  rw [Discipline.continues_ok]
  -- The version as the plain read found it: its phase is the one at the end.
  have hsame₄ := later_same hl₄ hLj
  obtain ⟨v₄, hv₄, -⟩ := hinv₄.consistent.versionOf (hsame₄.1 ▸ hjg)
  have hphase := later_phase hl₄ hLj hjg hv hv₄
  have hdraft : v₄.status ≠ .draft := by
    obtain ⟨w, hw, -, hwd, -⟩ := hinv₄.consistent.frozen_of_attempt (hsame₄.1 ▸ hjg)
      (hsame₄.2.1 ▸ hmem)
    obtain rfl := Option.some.inj (hv₄.symm.trans hw)
    -- An attempt has been frozen for: its version is not a draft.
    exact hwd
  have hbuilding : v₄.status = .building ↔ v.status = .building := by
    rw [← DatasetVersionStatus.phase_eq_building, hphase,
      DatasetVersionStatus.phase_eq_building]
  have hread : (((machine honours).view g₄.db []).datasetVersions.get? c.datasetVersionId).map
      (·.status) = some v₄.status := by
    rw [Concurrency.Machine.view_nil, ← hjv, hv₄]
    rfl
  have hids : ((machine honours).view g₅.db []).snapshotIds c.datasetVersionId
      = [c.datasetBuildSnapshotId] := by
    obtain ⟨b, hb, hbid⟩ := (hc.grows hinvfl.consistent.references
      (hle₁.trans (hle₂.trans (hle₃.trans (hle₄.trans hle₅)))).db).snapshot
    rw [Concurrency.Machine.view_nil, Store.snapshotIds_eq hb, hbid]
  rw [hread, hids]
  dsimp only
  rw [if_neg (not_not.mpr rfl)]
  by_cases hterminal : a.status = .succeeded ∨ a.status = .failed
  · -- Reconciliation was faster.
    have hnot : ¬ g.db.Overlooked c outcome := by
      -- An overlooked attempt was recorded as rejected, and this one is final.
      rw [hover]
      rintro ⟨h, -⟩
      rcases hterminal with h' | h' <;> cases h.symm.trans h'
    rw [if_pos hterminal, if_neg hdraft]
    -- The result repeats what the answer was.
    have hfinal : a.status ≠ .accepted ∧ a.status ≠ .dispatchFailed := by
      rcases hterminal with h | h <;> rw [h] <;> decide
    have hresult : ∀ r : CalculationJobRunResult, r.attemptStatus = a.status →
        (outcome.confirms = true ↔ r.dispatchOutcome ≠ .unknown) →
        (g.db.Confirms c outcome ↔ ∃ r', RecordOutcomeResult.result r = .result r'
          ∧ r'.IsConfirmed) := by
      intro r hr hkind
      simp [hconfirms, CalculationJobRunResult.IsConfirmed, CalculationJobRunResult.IsAccepted, hr,
        hfinal, hterminal, hkind]
    -- A rejection of an identity that has a final run is not the answer of an honest executor.
    cases outcome with
    | rejected message =>
        refine Discipline.wp_throw (hfail _ _ _ _ (fun hho => absurd (htells hho) fun hr => ?_)
          (by simp [hconfirms, hfinal, DispatchResult.confirms]))
        have hr : g.world.executor a.identity = .rejected := hr
        have := hagrees hho
        rw [hr] at this
        rcases hterminal with h | h <;> rw [h] at this <;> cases this
    | accepted =>
        exact wp_recordTerminal hinv hjg hag haj hLj rfl rfl hterminal
          fun seen last r hr hkind => hdone _ _ _ _ (fun _ => hnot) (hresult r hr (by rw [hkind]; decide))
    | alreadyExists =>
        exact wp_recordTerminal hinv hjg hag haj hLj rfl rfl hterminal
          fun seen last r hr hkind => hdone _ _ _ _ (fun _ => hnot) (hresult r hr (by rw [hkind]; decide))
    | unknown message =>
        exact wp_recordTerminal hinv hjg hag haj hLj rfl rfl hterminal
          fun seen last r hr hkind => hdone _ _ _ _ (fun _ => hnot)
            (hresult r hr (by simp [hkind, DispatchResult.confirms]))
  rw [if_neg hterminal]
  by_cases hopen : v₄.status = .building
  swap
  · -- Only a rejected attempt is over without a final status of the executor.
    rw [if_pos hopen]
    have hs : a.status = .dispatchFailed := by
      cases hs : a.status with
      | dispatchFailed => rfl
      | succeeded => exact absurd (.inl hs) hterminal
      | failed => exact absurd (.inr hs) hterminal
      | _ =>
          obtain ⟨w, hw, -, hwb, -⟩ := hinv.consistent.building_of_active hjg hmem (by rw [hs]; rfl)
          obtain rfl := Option.some.inj (hv.symm.trans hw)
          exact absurd (hbuilding.mpr hwb) hopen
    refine Discipline.wp_throw (hfail _ _ _ _ (fun _ => hover.mpr ⟨hs, .inr (.inl ?_)⟩)
      (by simp [hconfirms, hs]))
    exact fun h => hopen (hbuilding.mpr h)
  rw [if_neg (not_not.mpr hopen)]
  cases hs : a.status with
  | prepared => exact absurd hs hprepared
  | succeeded => exact absurd (.inl hs) hterminal
  | failed => exact absurd (.inr hs) hterminal
  | accepted =>
      -- Confirmed by an earlier answer, and its job runs: nothing is written.
      have hrunning : j.status = .running := hh.running_iff.mpr ⟨a, hmem, hs⟩
      rw [if_pos ⟨rfl, hrunning⟩]
      refine Discipline.wp_pure (hdone _ _ _ _ (fun _ => ?_) ?_)
      · rw [hover, hs]
        rintro ⟨h, -⟩
        cases h
      · exact ⟨fun _ => ⟨_, rfl, .inl ⟨rfl, rfl⟩⟩, fun _ => hconfirms.mpr (.inl hs)⟩
  | dispatching =>
      rw [if_neg (by simp)]
      -- The answer comes first: every branch passes its guard.
      rw [← hs]
      cases outcome with
      | accepted =>
          exact wp_recordConfirmation hinv hjg hag haj hLj hLa rfl rfl hs htells
            fun seen last r L ws hr => hmoves hs _ _ _ _ _ _ rfl (fun h => (by cases h))
              ⟨fun _ => ⟨r, rfl, .inl hr⟩, fun _ => rfl⟩
      | alreadyExists =>
          exact wp_recordConfirmation hinv hjg hag haj hLj hLa rfl rfl hs htells
            fun seen last r L ws hr => hmoves hs _ _ _ _ _ _ rfl (fun h => (by cases h))
              ⟨fun _ => ⟨r, rfl, .inl hr⟩, fun _ => rfl⟩
      | rejected message =>
          exact wp_recordRejection hinv hjg hag haj hLj hLa rfl hs htells
            fun seen last L ws => hmoves hs _ _ _ _ _ _ rfl (fun _ => ⟨message, rfl⟩)
              (by simp [DispatchResult.confirms])
      | unknown message =>
          refine wp_recordUnknown hinv hjg hag haj hLj hLa rfl hs
            fun seen last r L ws hr => hmoves hs _ _ _ _ _ _ rfl ?_ ?_
          · -- The attempt stays `DISPATCHING`, with the diagnosis on it.
            intro h
            cases hs.symm.trans h
          · simp [DispatchResult.confirms, CalculationJobRunResult.IsConfirmed,
              CalculationJobRunResult.IsAccepted, hr]
  | dispatchFailed =>
      rw [if_neg (by simp)]
      have hrejected : honours → g.world.executor a.identity = .rejected := by
        intro hho
        have := hagrees hho
        rwa [hs] at this
      have hnot : ¬ g.db.Confirms c outcome := by
        rw [hconfirms, hs]
        simp
      -- The identity has no run, so an honest executor does not confirm one.
      have hnorun : (honours → (g.world.executor a.identity).runExists = true) → honours →
          g.db.Overlooked c outcome := by
        intro h hho
        have := h hho
        rw [hrejected hho] at this
        cases this
      cases outcome with
      | accepted =>
          unfold recordConfirmation
          rw [if_pos (.inl (by simp))]
          exact Discipline.wp_throw (hfail _ _ _ _ (hnorun htells) hnot)
      | alreadyExists =>
          unfold recordConfirmation
          rw [if_pos (.inl (by simp))]
          exact Discipline.wp_throw (hfail _ _ _ _ (hnorun htells) hnot)
      | rejected message =>
          unfold recordRejection
          dsimp only
          by_cases hwaits : j.status = .pending ∨ j.status = .failed
          · rw [if_pos ⟨rfl, hwaits⟩]
            refine Discipline.wp_pure (hdone _ _ _ _ (fun _ => ?_) (by simpa using hnot))
            -- The rejection is on record, and the same answer again changes nothing.
            rw [hover]
            rintro ⟨-, ⟨m, hm⟩ | hv' | hj' | hj'⟩
            · cases hm
            · exact hv' (hbuilding.mp hopen)
            · rcases hwaits with h | h <;> cases hj'.symm.trans h
            · rcases hwaits with h | h <;> cases hj'.symm.trans h
          · -- A newer attempt has brought the job on.
            rw [if_neg fun h => hwaits h.2, if_pos (.inl (by simp))]
            refine Discipline.wp_throw (hfail _ _ _ _
              (fun _ => hover.mpr ⟨hs, .inr (.inr ?_)⟩) hnot)
            revert hwaits
            cases j.status <;> decide
      | unknown message =>
          -- A rejected identity does not become unknown again.
          unfold recordUnknown
          dsimp only
          rw [if_pos (.inl (by simp))]
          exact Discipline.wp_throw
            (hfail _ _ _ _ (fun _ => hover.mpr ⟨hs, .inl ⟨message, rfl⟩⟩) hnot)

end CostEngine
