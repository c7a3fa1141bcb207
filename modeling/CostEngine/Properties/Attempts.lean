import CostEngine.System.Scripts

/-! # The history of attempts is append-only -/

namespace CostEngine

open Relational (Table)
open Concurrency (play)

variable {honours : Prop} {st st' : System}

/-! ## Unique constraints -/

/-- The unique constraints of `execution_attempts`, the primary key apart. -/
def attemptKeys : List String :=
  ["uq_execution_attempt_job_number", "uq_execution_attempt_airflow_run",
    "uq_execution_attempt_active_job"]

/-- The primary keys that are filled with random UUIDs. -/
def uuidKeys : List String :=
  ["dataset_series_pkey", "dataset_versions_pkey", "calculation_jobs_pkey",
    "dataset_build_snapshots_pkey", "dataset_build_snapshot_dependencies_pkey",
    "execution_attempts_pkey"]

/-- Only a UUID that is taken makes a transaction violate a constraint. -/
theorem Transaction.Spec.uniqueViolation {t : Transaction} {env : TxEnv} {o : Ended t.Result}
    {g : Moment} (h : t.Spec honours env o g) {key : String}
    (he : o.result = .error (.uniqueViolation key)) : key ∈ uuidKeys := by
  have hlifecycle : ∀ {id target} {o : Ended LockedLifecycleDataset},
      LifecycleSpec honours id target env g o →
      o.result ≠ .error (.uniqueViolation key) := by
    intro id target o hspec he
    rcases hspec.ends with ⟨v, -, hends⟩ | ⟨he', -⟩
    · rw [he] at hends
      cases hends with
      | refused _ _ _ hconflict => cases hconflict
    · rw [he] at he'
      cases he'
  have hensures := h.ensures
  cases t with
  | createDatasetVersion input =>
      cases CreateSpec.error hensures _ he with
      | uuidTaken key hkey =>
          simp only [List.mem_cons, List.not_mem_nil, or_false] at hkey
          rcases hkey with rfl | rfl | rfl <;> simp [uuidKeys]
  | prepareCalculationJobRun jobId =>
      obtain ⟨fl, hspec⟩ := hensures
      cases hspec.error _ he with
      | uuidTaken key hkey =>
          simp only [List.mem_cons, List.not_mem_nil, or_false] at hkey
          rcases hkey with rfl | rfl | rfl <;> simp [uuidKeys]
  | prepareFailedCalculationJobRetry state =>
      cases RetrySpec.error hensures _ he with
      | uuidTaken => simp [uuidKeys]
  | beginDispatch d =>
      obtain ⟨g₁, rest, -, hends⟩ := BeginDispatchSpec.ends hensures
      rw [he] at hends
      cases hends
  | recordDispatchOutcome c outcome =>
      obtain ⟨message, hm⟩ := RecordOutcomeSpec.error hensures _ he
      cases hm
  | applyReconciliation context x =>
      obtain ⟨message, hm⟩ := ReconcileSpec.error hensures _ he
      cases hm
  | submitDatasetValidation id => exact absurd he (hlifecycle hensures)
  | decideValidatedDataset id seriesId decision => exact absurd he (hlifecycle hensures)
  | abandonDatasetVersion id seriesId => exact absurd he (hlifecycle hensures)

theorem not_attemptKey {key : String} (h : key ∈ uuidKeys) : key ∉ attemptKeys := by
  simp only [uuidKeys, List.mem_cons, List.not_mem_nil, or_false] at h
  rcases h with rfl | rfl | rfl | rfl | rfl | rfl <;> decide

/-! ## The rows -/

/-- What the constraints ask of the rows. -/
structure Store.AttemptsUnique (s : Store) : Prop where
  numbered : ∀ jobId, (s.attemptsOf jobId).map (·.attemptNumber)
    = List.range' 1 (s.attemptsOf jobId).length
  active : ∀ jobId, ∀ a ∈ s.attemptsOf jobId, ∀ b ∈ s.attemptsOf jobId,
    a.status.isActive = true → b.status.isActive = true → a = b
  identity : ∀ id id' a a', s.executionAttempts.get? id = some a →
    s.executionAttempts.get? id' = some a' → a.identity = a'.identity → id = id'

theorem Store.Consistent.attemptsUnique {s : Store} (h : s.Consistent) : s.AttemptsUnique := by
  have hhistory : ∀ jobId, s.attemptsOf jobId ≠ [] →
      ∃ status, History (s.attemptsOf jobId) status := by
    intro jobId hne
    obtain ⟨a, ha⟩ := List.exists_mem_of_ne_nil _ hne
    obtain ⟨hget, rfl⟩ := Store.mem_attemptsOf.mp ha
    obtain ⟨j, -, hh, -⟩ := h.jobOf hget
    exact ⟨j.status, hh⟩
  refine ⟨fun jobId => ?_, fun jobId a ha b hb hactive hactive' => ?_,
    fun _ _ _ _ ha ha' hi => h.attempt_of_identity ha ha' hi⟩
  · by_cases hnil : s.attemptsOf jobId = []
    · rw [hnil]
      rfl
    · obtain ⟨status, hh⟩ := hhistory jobId hnil
      exact hh.numbered
  · obtain ⟨status, hh⟩ := hhistory jobId (List.ne_nil_of_mem ha)
    exact hh.eq_of_active ha hb hactive hactive'

/-- What a step may do to the attempts: add some at the end of a job's list, and move one on. -/
structure Store.AttemptsAppended (s s' : Store) : Prop where
  order : ∀ jobId, ((s.attemptsOf jobId).map (·.id)).IsPrefix ((s'.attemptsOf jobId).map (·.id))
  rows : ∀ id a, s.executionAttempts.get? id = some a → ∃ a',
    s'.executionAttempts.get? id = some a' ∧ a'.calculationJobId = a.calculationJobId
      ∧ a'.attemptNumber = a.attemptNumber ∧ a'.airflowDagId = a.airflowDagId
      ∧ a'.airflowDagRunId = a.airflowDagRunId
      ∧ (a'.status = a.status ∨ a.status.Next a'.status)
      ∧ (a.status = .succeeded ∨ a.status = .failed ∨ a.status = .dispatchFailed → a' = a)

theorem Store.Single.attemptsAppended {s s' : Store} {now : Time} (h : s.Single now s')
    (hg : s.Grows s') : s.AttemptsAppended s' := by
  refine ⟨hg.attemptsOf, fun id a ha => ?_⟩
  obtain ⟨a', ha', rfl | hstep⟩ := h.attempts id a ha
  · exact ⟨a', ha', rfl, rfl, rfl, rfl, .inl rfl, fun _ => rfl⟩
  · obtain ⟨-, hjob, hnumber, hdag, hrun, -⟩ := hstep.step.columns
    refine ⟨a', ha', hjob, hnumber, hdag, hrun, hstep.step.status.imp_left And.left, fun hover => ?_⟩
    have hactive := hstep.step.active
    rcases hover with hs | hs | hs <;> rw [hs] at hactive <;> cases hactive

/-- **The history of attempts is append-only**: the attempts of a job are numbered from one in
the order they were created, no unique constraint on them is ever violated, and a step moves
an attempt on along its statuses or leaves its row alone. -/
theorem attempts_append_only (h : Reachable honours st) :
    st.shared.db.AttemptsUnique
    ∧ (∀ i t key a, st.Ending i t (.error (.uniqueViolation key)) a → key ∉ attemptKeys)
    ∧ ∀ st', (machine honours).Step st st' → st.shared.db.AttemptsAppended st'.shared.db := by
  refine ⟨h.consistent.attemptsUnique, fun i t key a he => ?_, fun st' hs => ?_⟩
  · obtain ⟨last, hspec⟩ := h.ends he
    exact not_attemptKey (hspec.uniqueViolation rfl)
  · obtain ⟨now, hsingle⟩ := h.single hs
    exact hsingle.attemptsAppended (h.safe.grows hs).db

theorem attempts_append_only_retried : ∃ S, play (machine False) (Script.retried False)
    SystemStage.sample = some S
      ∧ SystemStage.statuses S = ([.published, .draft], [.succeeded, .pending],
          [.failed, .succeeded])
      ∧ S.shared.db.AttemptsUnique := by
  obtain ⟨S, hS, hp⟩ := exists_of_play (p := fun S => SystemStage.statuses S
      = ([.published, .draft], [.succeeded, .pending], [.failed, .succeeded]))
    (show (play (machine False) (Script.retried False) SystemStage.sample).any _ = true by
      decide +kernel)
  exact ⟨S, hS, of_decide_eq_true hp,
    (attempts_append_only (.of_play SystemStage.sample_initial hS)).1⟩

end CostEngine
