import CostEngine.Invariant.Selects
import CostEngine.System.Discipline

/-! # Specifications of the locking statements

What the statements that several transactions share return, seen from the moment `g` in
which the transaction ends. A row that was there when the statement began is there, so the
`none` branches of the source are never taken; a row under a lock is the row at the end. -/

namespace CostEngine

open Relation (ReflTransGen)
open Relational (Table)
open Concurrency (Outcome Txn Discipline)

variable {honours : Prop} {g fl g₁ : Moment} {L : List RowLock} {ws : List Write}

abbrev Ended := Outcome Store RowLock Write ServiceError World

/-! ## Rows under a lock -/

/-- What a held lock guards is as it will be at the end. -/
theorem later_same {r : Row} (h : (discipline honours).Later L g₁ g) (hr : r.Held L) :
    r.Same g₁.db g.db := by
  obtain ⟨l, hl, rfl, hmode⟩ := hr
  exact h.same l hl hmode

/-- Under the lock of a job its version may be submitted or decided, and no more. -/
theorem later_phase {jobId : Uuid} {j : CalculationJob} {v v₁ : DatasetVersion}
    (h : (discipline honours).Later L g₁ g) (hheld : Row.Held (.calculationJob jobId) L)
    (hj : g.db.calculationJobs.get? jobId = some j)
    (hv : g.db.datasetVersions.get? j.outputDatasetVersionId = some v)
    (hv₁ : g₁.db.datasetVersions.get? j.outputDatasetVersionId = some v₁) :
    v₁.status.phase = v.status.phase := by
  obtain ⟨hsj, -, hphase⟩ := later_same h hheld
  rw [Store.phaseOf?_eq hj hv, Store.phaseOf?_eq (hsj ▸ hj) hv₁] at hphase
  exact (Option.some.inj hphase).symm

/-! ## One's own writes

What is found under a key, with the writes of the transaction on top, depends on what is
found there without them. -/

theorem foldl_apply_congr {P : Store → Store → Prop}
    (h : ∀ s s' w, P s s' → P (s.apply w) (s'.apply w)) {s s' : Store} (hs : P s s')
    (ws : List Write) : P (ws.foldl Store.apply s) (ws.foldl Store.apply s') := by
  induction ws generalizing s s' with
  | nil => exact hs
  | cons w ws ih => exact ih (h s s' w hs)

/-! ### Rows of the job, the attempt and the version -/

theorem view_job {s s' : Store} {id : Uuid}
    (h : s'.calculationJobs.get? id = s.calculationJobs.get? id) (ws : List Write) :
    (ws.foldl Store.apply s').calculationJobs.get? id
      = (ws.foldl Store.apply s).calculationJobs.get? id := by
  refine foldl_apply_congr (P := fun s' s =>
    s'.calculationJobs.get? id = s.calculationJobs.get? id) (fun s s' w hs => ?_) h ws
  cases w with
  | insertCalculationJob row =>
      simp only [Store.apply, Table.get?_insert_eq, hs]
  | putCalculationJob row => simp only [Store.apply, Table.get?_put, hs]
  | _ => exact hs

theorem view_attempt {s s' : Store} {id : Uuid}
    (h : s'.executionAttempts.get? id = s.executionAttempts.get? id) (ws : List Write) :
    (ws.foldl Store.apply s').executionAttempts.get? id
      = (ws.foldl Store.apply s).executionAttempts.get? id := by
  refine foldl_apply_congr (P := fun s' s =>
    s'.executionAttempts.get? id = s.executionAttempts.get? id) (fun s s' w hs => ?_) h ws
  cases w with
  | insertExecutionAttempt row => simp only [Store.apply, Table.get?_insert_eq, hs]
  | putExecutionAttempt row => simp only [Store.apply, Table.get?_put, hs]
  | _ => exact hs

theorem view_version {s s' : Store} {id : Uuid}
    (h : s'.datasetVersions.get? id = s.datasetVersions.get? id) (ws : List Write) :
    (ws.foldl Store.apply s').datasetVersions.get? id
      = (ws.foldl Store.apply s).datasetVersions.get? id := by
  refine foldl_apply_congr (P := fun s' s =>
    s'.datasetVersions.get? id = s.datasetVersions.get? id) (fun s s' w hs => ?_) h ws
  cases w with
  | insertDatasetVersion row => simp only [Store.apply, Table.get?_insert_eq, hs]
  | putDatasetVersion row => simp only [Store.apply, Table.get?_put, hs]
  | _ => exact hs

/-! ## Guarded updates -/

/-- An update of a locked attempt in the expected status. -/
theorem wp_updateAttempt {id : Uuid} {expected : ExecutionAttemptStatus}
    {columns : ExecutionAttempt → ExecutionAttempt} {a : ExecutionAttempt}
    {post : Ended Bool → Prop} (hheld : Row.Held (.executionAttempt id) L)
    (hrow : (ws.foldl Store.apply g.db).executionAttempts.get? id = some a)
    (hstatus : a.status = expected)
    (hpost : ∀ seen last, Moment.Grows fl last →
      (discipline honours).Later (.noKeyUpdate (.executionAttempt id) :: L) last g →
      post ⟨seen, last, .ok true, .noKeyUpdate (.executionAttempt id) :: L,
        ws ++ [.putExecutionAttempt (columns a)]⟩) :
    (discipline honours).Wp g fl L ws (updateAttempt id expected columns) post := by
  have hfind : ∀ g₁, (discipline honours).Later L g₁ g →
      ((ws.foldl Store.apply g₁.db).executionAttempts.get? id).filter (·.status = expected)
        = some a := by
    -- The lock keeps the row, and the writes so far are on top of it at all times.
    intro g₁ hl
    rw [← view_attempt (show _ = _ from later_same hl hheld) ws, hrow]
    simp [Option.filter, hstatus]
  have hfind' : ((ws.foldl Store.apply g.db).executionAttempts.get? id).filter
      (·.status = expected) = some a := by
    rw [hrow]
    simp [Option.filter, hstatus]
  refine Discipline.wp_bind (Discipline.wp_updateReturning ?_ ?_ ?_ ?_)
  · intro g₁ hl
    exact (hfind g₁ (hl.mono fun l hl => List.mem_cons_of_mem _ hl)).trans hfind'.symm
  · intro g₁ _ _ hl hn
    exact Table.no_row hn (hfind g₁ hl)
  · intro seen last _ _ hn
    exact Table.no_row hn hfind'
  · intro seen last row hle hl hr
    obtain rfl := Option.some.inj (hfind'.symm.trans hr)
    refine Discipline.wp_pure ?_
    simpa [Outcome.after] using hpost seen last hle hl

/-- An update of a locked job in one of the expected statuses. -/
theorem wp_updateJob {id : Uuid} {expected : List CalculationJobStatus}
    {columns : CalculationJob → CalculationJob} {j : CalculationJob}
    {post : Ended Bool → Prop} (hheld : Row.Held (.calculationJob id) L)
    (hrow : (ws.foldl Store.apply g.db).calculationJobs.get? id = some j)
    (hstatus : j.status ∈ expected)
    (hpost : ∀ seen last, Moment.Grows fl last →
      (discipline honours).Later (.noKeyUpdate (.calculationJob id) :: L) last g →
      post ⟨seen, last, .ok true, .noKeyUpdate (.calculationJob id) :: L,
        ws ++ [.putCalculationJob (columns j)]⟩) :
    (discipline honours).Wp g fl L ws (updateJob id expected columns) post := by
  have hfind : ∀ g₁, (discipline honours).Later L g₁ g →
      ((ws.foldl Store.apply g₁.db).calculationJobs.get? id).filter (·.status ∈ expected)
        = some j := by
    -- The lock keeps the row, and the writes so far are on top of it at all times.
    intro g₁ hl
    rw [← view_job (later_same hl hheld).1 ws, hrow]
    simp [Option.filter, hstatus]
  have hfind' : ((ws.foldl Store.apply g.db).calculationJobs.get? id).filter
      (·.status ∈ expected) = some j := by
    rw [hrow]
    simp [Option.filter, hstatus]
  refine Discipline.wp_bind (Discipline.wp_updateReturning ?_ ?_ ?_ ?_)
  · intro g₁ hl
    exact (hfind g₁ (hl.mono fun l hl => List.mem_cons_of_mem _ hl)).trans hfind'.symm
  · intro g₁ _ _ hl hn
    exact Table.no_row hn (hfind g₁ hl)
  · intro seen last _ _ hn
    exact Table.no_row hn hfind'
  · intro seen last row hle hl hr
    obtain rfl := Option.some.inj (hfind'.symm.trans hr)
    refine Discipline.wp_pure ?_
    simpa [Outcome.after] using hpost seen last hle hl

/-! ## Locking a job with its version -/

/-- The columns of the job are the final ones; those of the version are as they were when
the statement began, in the moment `g₁`. -/
theorem wp_lockCalculationJobDispatchContext {jobId : Uuid}
    {post : Ended (Option LockedCalculationJobDispatchContext) → Prop}
    (hjob : fl.db.calculationJobs.get? jobId ≠ none)
    (hpost : ∀ g₁ last j v ct, Moment.Grows fl g₁ → Invariant honours g₁ →
      (discipline honours).Later L g₁ g →
      g₁.db.datasetVersions.get? j.outputDatasetVersionId = some v →
      Moment.Grows g₁ last →
      (discipline honours).Later (.forUpdate (.calculationJob jobId) :: L) last g →
      g.db.calculationJobs.get? jobId = some j →
      g₁.db.calculationTypes.get? j.calculationTypeId = some ct →
      post ⟨[g₁, last], last, .ok (some {
          jobId := j.id
          jobStatus := j.status
          datasetVersionId := j.outputDatasetVersionId
          datasetStatus := v.status
          calculationTypeId := j.calculationTypeId
          calculationTypeCode := ct.code
          resolvedDependencyDefinitionVersionId :=
            j.resolvedDependencyDefinitionVersionId }),
        .forUpdate (.calculationJob jobId) :: L, []⟩) :
    (discipline honours).Wp g fl L [] (lockCalculationJobDispatchContext jobId) post := by
  refine Discipline.wp_selectJoinForUpdate ?_ ?_ ?_
  · intro x g₁ hl
    have hsame := (later_same hl Row.held_forUpdate).1
    exact (congrArg (Option.map _) hsame).symm
  · -- The job was there, and the rows it refers to are never deleted.
    intro g₁ hle hinv _ hn
    obtain ⟨j, hj⟩ := Option.ne_none_iff_exists'.mp hjob
    obtain ⟨j', hj', -⟩ := hle.db.job hj
    obtain ⟨v, r, ct, hv, -, hct, -⟩ := hinv.consistent.references.job _ j' hj'
    simp [Store.dispatchJoin?, hj', hv, hct] at hn
  · intro g₁ x last hle hinv hl hx hle' hl'
    simp only [Store.dispatchJoin?, Option.bind_eq_bind, Option.bind_eq_some_iff,
      Option.pure_def, Option.some.injEq] at hx
    obtain ⟨j₁, hj₁, v, hv, ct, hct, rfl⟩ := hx
    -- The row may have changed while the statement waited, but not the columns joined on.
    obtain ⟨j, hj, hs⟩ := hl.le.db.job hj₁
    obtain ⟨-, hversion, htype, -⟩ := job_columns hs
    have := hpost g₁ last j v ct hle hinv hl (by rw [hversion]; exact hv) hle' hl' hj
      (by rw [htype]; exact hct)
    simpa [hj] using this

/-! ### Locking an attempt -/

/-- The columns that `lockExecutionAttempt` returns. -/
def ExecutionAttempt.asLocked (a : ExecutionAttempt) : LockedExecutionAttempt where
  id := a.id
  calculationJobId := a.calculationJobId
  attemptNumber := a.attemptNumber
  status := a.status
  airflowDagId := a.airflowDagId
  airflowDagRunId := a.airflowDagRunId

/-- An attempt that exists is locked and read as it is at the end. -/
theorem wp_lockExecutionAttempt {id : Uuid} {post : Ended (Option LockedExecutionAttempt) → Prop}
    (hattempt : fl.db.executionAttempts.get? id ≠ none)
    (hpost : ∀ seen last a, Moment.Grows fl last →
      (discipline honours).Later (.forUpdate (.executionAttempt id) :: L) last g →
      g.db.executionAttempts.get? id = some a →
      post ⟨seen, last, .ok (some a.asLocked), .forUpdate (.executionAttempt id) :: L, []⟩) :
    (discipline honours).Wp g fl L [] (lockExecutionAttempt id) post := by
  obtain ⟨a₀, ha₀⟩ := Option.ne_none_iff_exists'.mp hattempt
  refine Discipline.wp_selectForUpdate ?_ ?_ ?_
  · intro g₁ hl
    have hsame : _ = _ := later_same hl Row.held_forUpdate
    exact (congrArg (Option.map _) hsame).symm
  · -- An attempt is never deleted.
    intro g₁ hle _ _ hn
    obtain ⟨a, ha, -⟩ := hle.db.attempt ha₀
    simp [Store.lockedAttempt?, ha] at hn
  · intro g₁ _ last hle₁ _ hle₂ hl
    have hle : Moment.Grows fl last := Moment.Grows.trans hle₁ hle₂
    obtain ⟨a, ha, -⟩ := (hle.trans hl.le).db.attempt ha₀
    have := hpost [g₁, last] last a hle hl ha
    simpa [Store.lockedAttempt?, ha, ExecutionAttempt.asLocked] using this

/-! ### The active attempt -/

/-- Under the lock of its job, the active attempt is the one at the end. -/
theorem wp_findActiveExecutionAttempt {jobId : Uuid}
    {post : Ended (Option ActiveExecutionAttempt) → Prop}
    (hheld : Row.Held (.calculationJob jobId) L)
    (hws : ∀ s : Store, (ws.foldl Store.apply s).executionAttempts = s.executionAttempts)
    (hpost : ∀ last, Moment.Grows fl last → (discipline honours).Later L last g →
      post ⟨[last], last, .ok (g.db.activeAttempt? jobId), L, ws⟩) :
    (discipline honours).Wp g fl L ws (findActiveExecutionAttempt jobId) post := by
  refine Discipline.wp_select fun g₁ hle _ hl => ?_
  -- The attempts of a locked job are fixed, and the transaction has written none.
  have hview : ((machine honours).view g₁.db ws).attemptsOf jobId = g.db.attemptsOf jobId := by
    rw [(later_same hl hheld).2.1]
    exact congrArg (Table.select · _) (hws g₁.db)
  have hsame : ((machine honours).view g₁.db ws).activeAttempt? jobId
      = g.db.activeAttempt? jobId := by
    unfold Store.activeAttempt?
    rw [hview]
  rw [hsame]
  exact hpost g₁ hle hl

theorem wp_lockActiveExecutionAttempt {jobId : Uuid}
    {post : Ended (Option ActiveExecutionAttempt) → Prop}
    (hheld : Row.Held (.calculationJob jobId) L)
    (hnone : ∀ seen last, g.db.activeAttempt? jobId = none → Moment.Grows fl last →
      (discipline honours).Later L last g → post ⟨seen, last, .ok none, L, []⟩)
    (hsome : ∀ seen last x, g.db.activeAttempt? jobId = some x → Moment.Grows fl last →
      (discipline honours).Later (.forUpdate (.executionAttempt x.id) :: L) last g →
      post ⟨seen, last, .ok (some x), .forUpdate (.executionAttempt x.id) :: L, []⟩) :
    (discipline honours).Wp g fl L [] (lockActiveExecutionAttempt jobId) post := by
  refine Discipline.wp_bind (wp_findActiveExecutionAttempt hheld (fun _ => rfl) fun last hle hl => ?_)
  rw [Discipline.continues_ok]
  cases hx : g.db.activeAttempt? jobId with
  | none => exact Discipline.wp_pure (hnone _ last hx hle hl)
  | some x =>
      refine Discipline.wp_bind (Discipline.wp_lock fun g₂ hle₂ _ => ?_)
      rw [Discipline.continues_ok]
      refine Discipline.wp_select fun g₃ hle₃ _ hl₃ => ?_
      have hsame : g₃.db.activeAttempt? jobId = some x := by
        rw [← hx]
        -- The attempt found without a lock is still the active one under its lock.
        unfold Store.activeAttempt?
        rw [(later_same hl₃ hheld.cons).2.1]
      simpa [Outcome.after, hsame, Option.filter] using
        hsome _ g₃ x hx (hle.trans (hle₂.trans hle₃)) hl₃

/-! ### Locking the version -/

/-- A version that exists is locked and read as it is at the end. -/
theorem wp_lockOutputDatasetVersion {id : Uuid}
    {post : Ended (Option LockedDatasetVersion) → Prop}
    (hversion : fl.db.datasetVersions.get? id ≠ none)
    (hpost : ∀ seen last v, Moment.Grows fl last →
      (discipline honours).Later (.forUpdate (.datasetVersion id) :: L) last g →
      g.db.datasetVersions.get? id = some v →
      post ⟨seen, last, .ok (some { id := v.id, status := v.status }),
        .forUpdate (.datasetVersion id) :: L, []⟩) :
    (discipline honours).Wp g fl L [] (lockOutputDatasetVersion id) post := by
  obtain ⟨v₀, hv₀⟩ := Option.ne_none_iff_exists'.mp hversion
  refine Discipline.wp_selectForUpdate ?_ ?_ ?_
  · intro g₁ hl
    have hsame := (later_same hl Row.held_forUpdate).1
    exact (congrArg (Option.map _) hsame).symm
  · -- A version is never deleted.
    intro g₁ hle _ _ hn
    obtain ⟨v, hv, -⟩ := hle.db.version hv₀
    simp [hv] at hn
  · intro g₁ _ last hle₁ _ hle₂ hl
    have hle : Moment.Grows fl last := Moment.Grows.trans hle₁ hle₂
    obtain ⟨v, hv, -⟩ := (hle.trans hl.le).db.version hv₀
    have := hpost [g₁, last] last v hle hl hv
    simpa [hv] using this

theorem wp_readDatasetFreezeState {id : Uuid} {post : Ended DatasetFreezeState → Prop}
    (hheld : Row.Held (.datasetVersion id) L)
    (hpost : ∀ last, Moment.Grows fl last → (discipline honours).Later L last g →
      post ⟨[last], last, .ok (g.db.freezeState id), L, []⟩) :
    (discipline honours).Wp g fl L [] (readDatasetFreezeState id) post := by
  refine Discipline.wp_select fun g₁ hle _ hl => ?_
  rw [Concurrency.Machine.view_nil, ← Store.freezeState_eq (later_same hl hheld)]
  exact hpost g₁ hle hl

end CostEngine
