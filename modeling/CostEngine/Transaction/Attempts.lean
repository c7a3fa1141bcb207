import CostEngine.Transaction.Dispatch

/-! # Preparing an attempt

What First Run and retry share: the lock of the selected job, and the insert of its next
attempt. Both may come after writes `ws` of the same transaction, which do not touch
attempts. The keys of the new row are free: its number follows the ones there are, its run
id is made of its UUID, and the job has no active attempt. Only the UUID itself may be
taken. -/

namespace CostEngine

open Relational (Table)
open Concurrency (Outcome Txn Discipline)

variable {honours : Prop} {g fl : Moment} {L : List RowLock} {ws : List Write}
variable {env : TxEnv}

theorem foldl_calculationTypes (ws : List Write) (s : Store) :
    (ws.foldl Store.apply s).calculationTypes = s.calculationTypes := by
  induction ws generalizing s with
  | nil => rfl
  | cons w ws ih =>
      rw [List.foldl_cons, ih]
      cases w <;> rfl

theorem foldl_job_ne_none {id : Uuid} (ws : List Write) {s : Store}
    (h : s.calculationJobs.get? id ≠ none) :
    (ws.foldl Store.apply s).calculationJobs.get? id ≠ none := by
  induction ws generalizing s with
  | nil => exact h
  | cons w ws ih =>
      refine ih ?_
      cases w with
      | insertCalculationJob row =>
          obtain ⟨j, hj⟩ := Option.ne_none_iff_exists'.mp h
          exact Table.row_ne_none (Table.get?_insert_of_some hj)
      | putCalculationJob row => exact fun hn => h (Table.get?_put_eq_none.mp hn)
      | _ => exact h

/-- The rest of the transaction may see its own writes on the row of the job. -/
theorem wp_lockSelectedCalculationJob {jobId : Uuid}
    {post : Ended (Option LockedSelectedJob) → Prop}
    (hrow : ∀ g₁, Moment.Grows fl g₁ → Invariant honours g₁ →
      (discipline honours).Later L g₁ g → ∃ j₁ j₂, g₁.db.calculationJobs.get? jobId = some j₁
        ∧ (ws.foldl Store.apply g₁.db).calculationJobs.get? jobId = some j₂
        ∧ j₂.calculationTypeId = j₁.calculationTypeId)
    (hpost : ∀ seen last j dag, Moment.Grows fl last →
      (discipline honours).Later (.forUpdate (.calculationJob jobId) :: L) last g →
      (ws.foldl Store.apply g.db).calculationJobs.get? jobId = some j →
      post ⟨seen, last, .ok (some {
          id := j.id
          outputDatasetVersionId := j.outputDatasetVersionId
          status := j.status
          calculationTypeId := j.calculationTypeId
          resolvedDependencyDefinitionVersionId := j.resolvedDependencyDefinitionVersionId
          airflowDagId := dag }),
        .forUpdate (.calculationJob jobId) :: L, ws⟩) :
    (discipline honours).Wp g fl L ws (lockSelectedCalculationJob jobId) post := by
  have hfind : ∀ g₁, (discipline honours).Later (.forUpdate (.calculationJob jobId) :: L) g₁ g →
      (ws.foldl Store.apply g₁.db).calculationJobs.get? jobId
        = (ws.foldl Store.apply g.db).calculationJobs.get? jobId :=
    fun g₁ hl => (view_job (later_same hl Row.held_forUpdate).1 ws).symm
  refine Discipline.wp_selectJoinForUpdate ?_ ?_ ?_
  · exact fun dag g₁ hl => congrArg (Option.map _) (hfind g₁ hl)
  · intro g₁ hle hinv hl hn
    obtain ⟨j₁, j₂, hj₁, hj₂, htype⟩ := hrow g₁ hle hinv hl
    obtain ⟨-, -, ct, -, -, hct, -⟩ := hinv.consistent.references.job _ j₁ hj₁
    have hj₂ : ((machine honours).view g₁.db ws).calculationJobs.get? jobId = some j₂ := hj₂
    have htypes : ((machine honours).view g₁.db ws).calculationTypes = g₁.db.calculationTypes :=
      foldl_calculationTypes ws g₁.db
    simp [hj₂, htypes, htype, hct] at hn
  · intro g₁ dag last hle hinv hl _ hle' hl'
    obtain ⟨j₁, -, hj₁, -⟩ := hrow g₁ hle hinv hl
    obtain ⟨j, hj, -⟩ := hl.le.db.job hj₁
    obtain ⟨j', hj'⟩ := Option.ne_none_iff_exists'.mp
      (foldl_job_ne_none ws (Table.row_ne_none hj))
    have := hpost [g₁, last] last j' dag (Moment.Grows.trans hle hle') hl' hj'
    have hj' : ((machine honours).view g.db ws).calculationJobs.get? jobId = some j' := hj'
    simpa [hj'] using this

/-! ### `allocateNextAttemptNumber` -/

/-- The next number, under the lock of the job. -/
theorem wp_allocateNextAttemptNumber {jobId : Uuid} {j : CalculationJob}
    {post : Ended Nat → Prop} (hheld : Row.Held (.calculationJob jobId) L)
    (hws : ∀ s : Store, (ws.foldl Store.apply s).executionAttempts = s.executionAttempts)
    (hj : g.db.calculationJobs.get? jobId = some j) (hinv : Invariant honours g)
    (hpost : ∀ last, Moment.Grows fl last → (discipline honours).Later L last g →
      post ⟨[last], last, .ok ((g.db.attemptsOf jobId).length + 1), L, ws⟩) :
    (discipline honours).Wp g fl L ws (allocateNextAttemptNumber jobId) post := by
  refine Discipline.wp_select fun g₁ hle _ hl => ?_
  -- The attempts of a locked job are fixed, and the transaction has written none.
  have hview : ((machine honours).view g₁.db ws).attemptsOf jobId = g.db.attemptsOf jobId := by
    rw [(later_same hl hheld).2.1]
    exact congrArg (Table.select · _) (hws g₁.db)
  have hnumber : ((machine honours).view g₁.db ws).nextAttemptNumber jobId
      = (g.db.attemptsOf jobId).length + 1 := by
    unfold Store.nextAttemptNumber
    -- The numbers are 1 to n, so the next one follows their count.
    rw [hview, (hinv.consistent.history _ j hj).max_number]
  rw [hnumber]
  exact hpost g₁ hle hl

/-! ### The new attempt -/

/-- The row that `insertPreparedExecutionAttempt` inserts. -/
def preparedAttempt (env : TxEnv) (id jobId : Uuid) (attemptNumber : Nat)
    (airflowDagId airflowDagRunId : String) : ExecutionAttempt where
  id := id
  calculationJobId := jobId
  attemptNumber := attemptNumber
  status := .prepared
  airflowDagId := airflowDagId
  airflowDagRunId := airflowDagRunId
  createdAt := env.now

/-- The new row, on top of a change that touches no attempt. -/
theorem Commit.insertPrepared (env : TxEnv) (dag : String) {s : Store} {id jobId : Uuid}
    {j : CalculationJob} {v : DatasetVersion} (h : Commit honours env.now L g s)
    (hattempts : s.executionAttempts = g.db.executionAttempts)
    (hfree : g.db.executionAttempts.get? id = none)
    (hj : s.calculationJobs.get? jobId = some j)
    (hv : s.datasetVersions.get? j.outputDatasetVersionId = some v)
    (hbuilding : v.status = .building) (hsucceeded : j.status ≠ .succeeded)
    (hactive : ∀ a ∈ g.db.attemptsOf jobId, a.status.isActive = false)
    (hL : Row.Held (.executionAttempt id) L) (hL' : Row.Held (.calculationJob jobId) L) :
    Commit honours env.now L g (s.apply (.insertExecutionAttempt (preparedAttempt env id jobId
      ((g.db.attemptsOf jobId).length + 1) dag (airflowDagRunIdOf id)))) := by
  have hof : s.attemptsOf jobId = g.db.attemptsOf jobId := by
    unfold Store.attemptsOf
    rw [hattempts]
  have hins : s.Change env.now L (s.apply (.insertExecutionAttempt (preparedAttempt env id jobId
      ((g.db.attemptsOf jobId).length + 1) dag (airflowDagRunIdOf id)))) := by
    refine Store.Change.insertAttempt h.change.consistent ?_ hj hv hbuilding hsucceeded ?_
      ⟨rfl, rfl, rfl, rfl, rfl⟩ ?_ rfl hL hL'
    · rw [hattempts]
      exact hfree
    · exact hof ▸ hactive
    · exact hof ▸ rfl
  -- Of the attempts only the new one is not an old one, and it asks for nothing.
  refine ⟨h.change.trans hins hattempts (.inr rfl), fun hh a' a ha => ?_⟩
  rcases Table.of_get?_insert ha with ha | rfl
  · exact h.agrees hh _ a ha
  · trivial

theorem insertPrepared_get? (s : Store) {a : ExecutionAttempt}
    (hfree : s.executionAttempts.get? a.id = none) :
    (s.apply (.insertExecutionAttempt a)).executionAttempts.get? a.id = some a :=
  (Table.get?_insert hfree).trans (if_pos rfl)

/-! ### `insertPreparedExecutionAttempt` -/

theorem wp_insertPreparedExecutionAttempt {id jobId : Uuid} {dag : String}
    {j : CalculationJob} {post : Ended Unit → Prop}
    (hheld : Row.Held (.calculationJob jobId) L)
    (hws : ∀ s : Store, (ws.foldl Store.apply s).executionAttempts = s.executionAttempts)
    (hj : g.db.calculationJobs.get? jobId = some j) (hinv : Invariant honours g)
    (hactive : ∀ a ∈ g.db.attemptsOf jobId, a.status.isActive = false)
    (htaken : ∀ seen last L',
      post ⟨seen, last, .error (.uniqueViolation "execution_attempts_pkey"), L', ws⟩)
    (hpost : ∀ seen last, g.db.executionAttempts.get? id = none →
      post ⟨seen, last, .ok (),
        .keyShare (.calculationJob jobId) :: .forUpdate (.executionAttempt id) :: L,
        ws ++ [.insertExecutionAttempt (preparedAttempt env id jobId
          ((g.db.attemptsOf jobId).length + 1) dag (airflowDagRunIdOf id))]⟩) :
    (discipline honours).Wp g fl L ws (insertPreparedExecutionAttempt env id jobId
      ((g.db.attemptsOf jobId).length + 1) dag (airflowDagRunIdOf id)) post := by
  have hattempts : ∀ g₁, (discipline honours).Later (.forUpdate (.executionAttempt id) :: L) g₁ g →
      ((machine honours).view g₁.db ws).attemptsOf jobId = g.db.attemptsOf jobId := by
    intro g₁ hl
    rw [(later_same hl hheld.cons).2.1]
    exact congrArg (Table.select · _) (hws g₁.db)
  have hrows : ∀ g₁ : Moment, ((machine honours).view g₁.db ws).executionAttempts
      = g₁.db.executionAttempts := fun g₁ => hws g₁.db
  -- The number is above every number in use.
  have hnumber : (g.db.attemptsOf jobId).any
      (·.attemptNumber = (g.db.attemptsOf jobId).length + 1) = false := by
    rw [List.any_eq_false]
    intro a ha he
    have := ((hinv.consistent.history _ j hj).number_pos ha).2
    rw [decide_eq_true_eq] at he
    omega
  -- No other attempt of the job is active.
  have hany : (g.db.attemptsOf jobId).any (·.status.isActive) = false := by
    rw [List.any_eq_false]
    intro a ha he
    rw [hactive a ha] at he
    cases he
  refine Discipline.wp_bind (Discipline.wp_insertRow ?_ ?_)
  · intro e g₁ _ hinv₁ hl hviol
    rw [hattempts g₁ hl, hrows g₁, hnumber, hany] at hviol
    split at hviol
    · cases hviol
      exact htaken _ _ _
    · rename_i hfree
      rw [if_neg (by simp)] at hviol
      split at hviol
      · -- A row with this run id would have this UUID.
        rename_i hrun
        obtain ⟨ea, hea, he⟩ := List.any_eq_true.mp hrun
        rw [decide_eq_true_eq] at he
        have hget := Table.get?_of_mem hea
        have hid := (hinv₁.consistent.references.attempt _ ea hget).2
        rw [he.2] at hid
        have : id = ea.id := String.append_right_inj _ |>.mp hid
        rw [this, hget] at hfree
        exact absurd rfl hfree
      · cases hviol
  · intro g₁ _ _ hl hviol
    rw [Discipline.continues_ok]
    refine Discipline.wp_lock fun g₂ _ _ => ?_
    refine hpost _ _ ?_
    -- The lock on the UUID keeps it free.
    have hsame : g.db.executionAttempts.get? id = g₁.db.executionAttempts.get? id :=
      later_same hl Row.held_forUpdate
    rw [hsame]
    rw [hrows g₁] at hviol
    by_contra hne
    rw [if_pos (Option.isSome_iff_ne_none.mpr hne)] at hviol
    cases hviol

end CostEngine
