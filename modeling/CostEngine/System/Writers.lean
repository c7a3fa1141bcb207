import CostEngine.System.Reachable

/-! # Which transactions change the versions, and which reject an attempt

Only a creation adds series, versions and jobs, only a first Run takes a version out of
`DRAFT` into `BUILDING`, and only the record of a rejection sets an attempt to
`DISPATCH_FAILED`. -/

namespace CostEngine

open Relational (Table)

variable {honours : Prop} {st st' : System}

/-! ## The writes of a transaction -/

namespace Store

variable {s s' : Store}

/-- No series, version or job was added, and no number allocated. -/
structure NoneAdded (s s' : Store) : Prop where
  series : s'.datasetSeries = s.datasetSeries
  versions : ∀ id, s.datasetVersions.get? id = none → s'.datasetVersions.get? id = none
  jobs : ∀ id, s.calculationJobs.get? id = none → s'.calculationJobs.get? id = none

theorem NoneAdded.refl : s.NoneAdded s := ⟨rfl, fun _ h => h, fun _ h => h⟩

theorem NoneAdded.of_config {locks : List RowLock} (h : s.ConfigStep locks s') :
    s.NoneAdded s' := by
  refine ⟨h.datasetSeries, fun id hid => ?_, fun id hid => ?_⟩
  · rwa [h.datasetVersions]
  · rwa [h.calculationJobs]

/-- The row of a transaction that may write it, and of no creation. -/
theorem NoneAdded.apply {t : Transaction} {u : Write} (ht : ∀ input, t ≠ .createDatasetVersion input)
    (hu : t.mayWrite u = true) (s₀ : Store) (h : s₀.NoneAdded s) : s₀.NoneAdded (s.apply u) := by
  cases u with
  | insertDatasetSeries r | putDatasetSeries r | insertDatasetVersion v | insertCalculationJob j =>
      cases t with
      | createDatasetVersion input => exact absurd rfl (ht input)
      | _ => cases hu
  | putDatasetVersion v =>
      exact ⟨h.series, fun id hid => Table.get?_put_eq_none.mpr (h.versions id hid), h.jobs⟩
  | putCalculationJob j =>
      exact ⟨h.series, h.versions, fun id hid => Table.get?_put_eq_none.mpr (h.jobs id hid)⟩
  | _ => exact ⟨h.series, h.versions, h.jobs⟩

theorem NoneAdded.foldl {t : Transaction} {ws : List Write}
    (ht : ∀ input, t ≠ .createDatasetVersion input) (hws : ∀ u ∈ ws, t.mayWrite u = true) (s₀ : Store)
    (h : s₀.NoneAdded s) : s₀.NoneAdded (ws.foldl Store.apply s) := by
  induction ws generalizing s with
  | nil => exact h
  | cons u ws ih =>
      exact ih (fun u' hu' => hws u' (List.mem_cons_of_mem _ hu'))
        (h.apply ht (hws u List.mem_cons_self) s₀)

/-- No attempt became `DISPATCH_FAILED`. -/
def NoneRejected (s s' : Store) : Prop := ∀ id a, s'.executionAttempts.get? id = some a →
  a.status = .dispatchFailed → s.executionAttempts.get? id = some a

theorem NoneRejected.apply {t : Transaction} {u : Write}
    (ht : ∀ c outcome, t ≠ .recordDispatchOutcome c outcome) (hu : t.mayWrite u = true) (s₀ : Store)
    (h : s₀.NoneRejected s) : s₀.NoneRejected (s.apply u) := by
  intro id a ha hstatus
  cases u with
  | insertExecutionAttempt b =>
      rcases Table.of_get?_insert ha with ha | rfl
      · exact h id a ha hstatus
      · cases t with
        | prepareCalculationJobRun | prepareFailedCalculationJobRetry =>
            rw [of_decide_eq_true hu] at hstatus
            cases hstatus
        | _ => cases hu
  | putExecutionAttempt b =>
      rcases Table.of_get?_put ha with ha | rfl
      · exact h id a ha hstatus
      · cases t with
        | beginDispatch d =>
            rw [of_decide_eq_true hu] at hstatus
            cases hstatus
        | applyReconciliation context x => exact absurd hstatus (of_decide_eq_true hu)
        | recordDispatchOutcome c outcome => exact absurd rfl (ht c outcome)
        | _ => cases hu
  | _ => exact h id a ha hstatus

theorem NoneRejected.foldl {t : Transaction} {ws : List Write}
    (ht : ∀ c outcome, t ≠ .recordDispatchOutcome c outcome) (hws : ∀ u ∈ ws, t.mayWrite u = true)
    (s₀ : Store) (h : s₀.NoneRejected s) : s₀.NoneRejected (ws.foldl Store.apply s) := by
  induction ws generalizing s with
  | nil => exact h
  | cons u ws ih =>
      exact ih (fun u' hu' => hws u' (List.mem_cons_of_mem _ hu'))
        (h.apply ht (hws u List.mem_cons_self) s₀)

/-- A transaction that may not write versions leaves them alone. -/
theorem foldl_datasetVersions {t : Transaction} {ws : List Write}
    (ht : ∀ v, t.mayWrite (.insertDatasetVersion v) = false ∧ t.mayWrite (.putDatasetVersion v) = false)
    (hws : ∀ u ∈ ws, t.mayWrite u = true) :
    (ws.foldl Store.apply s).datasetVersions = s.datasetVersions := by
  induction ws generalizing s with
  | nil => rfl
  | cons u ws ih =>
      rw [List.foldl_cons, ih fun u' hu' => hws u' (List.mem_cons_of_mem _ hu')]
      have hu := hws u List.mem_cons_self
      cases u with
      | insertDatasetVersion v => rw [(ht v).1] at hu; cases hu
      | putDatasetVersion v => rw [(ht v).2] at hu; cases hu
      | _ => rfl

theorem Freezes.ne {id : Uuid} (h : s.Freezes s' id) :
    s'.datasetVersions.get? id ≠ s.datasetVersions.get? id := by
  obtain ⟨v, v', hv, hdraft, hv', hbuilding⟩ := h
  intro he
  rw [hv, hv'] at he
  cases he
  rw [hdraft] at hbuilding
  cases hbuilding

end Store

/-! ## Creation -/

/-- What a creation leaves: the series found or new, the version, and its jobs. -/
theorem Created.store {input : SeriesIdentity} {g : Moment} {o : Ended CreateDatasetVersionResult}
    {r : DatasetSeries} {v : DatasetVersion} {jobs : List CalculationJob} {pre : List Write}
    (h : Created honours input g o r v jobs pre) : ∃ series,
      o.writes.foldl Store.apply g.db = { g.db with
        datasetSeries := series
        datasetVersions := g.db.datasetVersions.insert v
        calculationJobs := jobs.foldl Table.insert g.db.calculationJobs } := by
  obtain ⟨series, hs⟩ := h.series.others g.db
  rw [h.writes, List.foldl_append, hs, Store.foldl_creation]
  exact ⟨_, rfl⟩

/-- The jobs of the new version. -/
theorem Created.jobsOf {input : SeriesIdentity} {g : Moment} {o : Ended CreateDatasetVersionResult}
    {r : DatasetSeries} {v : DatasetVersion} {jobs : List CalculationJob} {pre : List Write}
    (h : Created honours input g o r v jobs pre) (hinv : Invariant honours g) :
    (o.writes.foldl Store.apply g.db).jobsOf v.id = jobs := by
  obtain ⟨series₀, hs₀⟩ := h.series.others g.db
  have hd := h.draft
  rw [hs₀] at hd
  obtain ⟨series, hs⟩ := h.store
  rw [hs]
  show (jobs.foldl Table.insert g.db.calculationJobs).select _ = jobs
  rw [Table.select_foldl_insert hd.jobs_nodup hd.jobs_fresh]
  show g.db.jobsOf v.id ++ _ = _
  rw [hinv.consistent.references.jobsOf_eq_nil hd.fresh, List.nil_append, List.filter_eq_self]
  intro j hj
  simp [(hd.jobs_pending j hj).1]

/-! ## One step -/

/-- Only a creation adds series, versions and jobs. -/
theorem Reachable.noneAdded (h : Reachable honours st) (hs : (machine honours).Step st st') :
    (∃ i input r ws, Commits i (.createDatasetVersion input) r ws st st')
      ∨ st.shared.db.NoneAdded st'.shared.db := by
  rcases step_db hs with ⟨i, t, r, ws, hc⟩ | ⟨locks, hc⟩ | hst
  · by_cases ht : ∀ input, t ≠ .createDatasetVersion input
    · obtain ⟨req, log, k, a, hi, hr, rfl, hst⟩ := hc
      obtain ⟨last, hspec⟩ := h.commits hi hr
      rw [hst]
      exact .inr (.foldl ht hspec.footprint _ .refl)
    · push Not at ht
      obtain ⟨input, rfl⟩ := ht
      exact .inl ⟨i, input, r, ws, hc⟩
  · exact .inr (.of_config hc)
  · rw [hst]
    exact .inr .refl

/-- A new version is a draft. -/
theorem Reachable.new_version_draft (h : Reachable honours st) (hs : (machine honours).Step st st')
    {id : Uuid} {v : DatasetVersion} (hnone : st.shared.db.datasetVersions.get? id = none)
    (hv : st'.shared.db.datasetVersions.get? id = some v) : v.status = .draft := by
  rcases h.noneAdded hs with ⟨i, input, r, ws, req, log, k, a, hi, hr, rfl, hst⟩ | hnoneAdded
  swap
  · exact absurd (hnoneAdded.versions id hnone) (Table.row_ne_none hv)
  obtain ⟨last, hspec⟩ := h.commits hi hr
  obtain ⟨r', v', jobs, pre, hcreated⟩ := CreateSpec.created hspec.ensures r rfl
  obtain ⟨series, hstore⟩ := hcreated.store
  rw [hst] at hv
  have hv : (a.writes.foldl Store.apply st.shared.db).datasetVersions.get? id = some v := hv
  rw [show a.writes.foldl Store.apply st.shared.db = _ from hstore] at hv
  rcases Table.of_get?_insert hv with hv | rfl
  · exact absurd hnone (Table.row_ne_none hv)
  · exact hcreated.draft.status

/-- A lifecycle command moves a version to its target, which is not `BUILDING`. -/
theorem LifecycleSpec.not_freezes {id id' : Uuid} {target : LifecycleTarget} {env : TxEnv}
    {g : Moment} {o : Ended LockedLifecycleDataset} (h : LifecycleSpec honours id' target env g o)
    {d : LockedLifecycleDataset} (hd : o.result = .ok d) :
    ¬ g.db.Freezes (o.writes.foldl Store.apply g.db) id := by
  intro hf
  rcases h.ends with ⟨v, hv, hends⟩ | ⟨he, -⟩
  swap
  · rw [hd] at he
    cases he
  rw [hd] at hends
  generalize hws : o.writes = ws at hends hf
  cases hends with
  | holds _ => exact hf.ne rfl
  | moves _ =>
      obtain ⟨w, w', hw, hdraft, hw', hbuilding⟩ := hf
      rcases Table.of_get?_put hw' with hw' | rfl
      · obtain rfl := Option.some.inj (hw.symm.trans hw')
        rw [hdraft] at hbuilding
        cases hbuilding
      · cases target <;> cases hbuilding

theorem Created.not_freezes {input : SeriesIdentity} {g : Moment}
    {o : Ended CreateDatasetVersionResult} {r : DatasetSeries} {v : DatasetVersion}
    {jobs : List CalculationJob} {pre : List Write} (h : Created honours input g o r v jobs pre)
    {id : Uuid} : ¬ g.db.Freezes (o.writes.foldl Store.apply g.db) id := by
  intro hf
  have hfreezes := hf
  obtain ⟨w, w', hw, -⟩ := hfreezes
  obtain ⟨series, hs⟩ := h.store
  rw [hs] at hf
  exact hf.ne ((Table.get?_insert_of_some hw).trans hw.symm)

/-- **Only a first Run freezes a version.** -/
theorem Reachable.freezes (h : Reachable honours st) (hs : (machine honours).Step st st')
    {id : Uuid} (hf : st.shared.db.Freezes st'.shared.db id) :
    ∃ i jobId p ws, Commits i (.prepareCalculationJobRun jobId) p ws st st' := by
  rcases step_db hs with ⟨i, t, r, ws, hc⟩ | ⟨locks, hc⟩ | hst
  swap
  · exact absurd (congrArg (·.get? id) hc.datasetVersions) hf.ne
  swap
  · exact absurd (by rw [hst]) hf.ne
  have hcommits := hc
  obtain ⟨req, log, k, a, hi, hr, rfl, hst⟩ := hc
  obtain ⟨last, hspec⟩ := h.commits hi hr
  have hdb : st'.shared.db = a.writes.foldl Store.apply st.shared.db := by rw [hst]
  rw [hdb] at hf
  have hkept : ∀ {t : Transaction}, (∀ v, t.mayWrite (.insertDatasetVersion v) = false
      ∧ t.mayWrite (.putDatasetVersion v) = false) →
      (∀ u ∈ a.writes, t.mayWrite u = true) → False := fun ht hws =>
    hf.ne (congrArg (·.get? id) (Store.foldl_datasetVersions ht hws))
  have hensures := hspec.ensures
  cases t with
  | prepareCalculationJobRun jobId => exact ⟨i, jobId, r, a.writes, hcommits⟩
  | createDatasetVersion input =>
      obtain ⟨_, _, _, _, hcreated⟩ := CreateSpec.created hensures r rfl
      exact absurd hf hcreated.not_freezes
  | submitDatasetValidation id => exact absurd hf (LifecycleSpec.not_freezes hensures rfl)
  | decideValidatedDataset id seriesId decision =>
      exact absurd hf (LifecycleSpec.not_freezes hensures rfl)
  | abandonDatasetVersion id seriesId => exact absurd hf (LifecycleSpec.not_freezes hensures rfl)
  | _ => exact (hkept (fun _ => ⟨rfl, rfl⟩) hspec.footprint).elim

/-- **Only the record of a rejection rejects an attempt**, the one of its command. -/
theorem Reachable.rejects (h : Reachable honours st) (hs : (machine honours).Step st st')
    {id : Uuid} {a : ExecutionAttempt} (ha : st'.shared.db.executionAttempts.get? id = some a)
    (hstatus : a.status = .dispatchFailed) : st.shared.db.executionAttempts.get? id = some a
      ∨ ∃ i c message r ws, Commits i (.recordDispatchOutcome c (.rejected message)) r ws st st'
        ∧ a.identity = c.identity := by
  rcases step_db hs with ⟨i, t, r, ws, hc⟩ | ⟨locks, hc⟩ | hst
  swap
  · rw [hc.executionAttempts] at ha
    exact .inl ha
  swap
  · rw [hst] at ha
    exact .inl ha
  have hcommits := hc
  obtain ⟨req, log, k, active, hi, hr, rfl, hst⟩ := hc
  obtain ⟨last, hspec⟩ := h.commits hi hr
  have hdb : st'.shared.db = active.writes.foldl Store.apply st.shared.db := by rw [hst]
  by_cases ht : ∀ c outcome, t ≠ .recordDispatchOutcome c outcome
  · rw [hdb] at ha
    exact .inl (Store.NoneRejected.foldl ht hspec.footprint _ (fun _ _ ha _ => ha) id a ha hstatus)
  · push Not at ht
    obtain ⟨c, outcome, rfl⟩ := ht
    have hrecord : RecordOutcomeSpec honours c outcome active.env st.shared _ := hspec.ensures
    rcases hrecord.rejects id a (hdb ▸ ha) hstatus with hold | ⟨rfl, message, rfl⟩
    · exact .inl hold
    · -- the command still names the attempt after the commit
      have hdispatched : st'.shared.db.Dispatched c := hspec.pre.1.grows
        h.consistent.references (h.safe.grows hs).db
      obtain ⟨a', ha', -, -, hdag, hrun, -⟩ := hdispatched.attempt
      obtain rfl := Option.some.inj (ha.symm.trans ha')
      exact .inr ⟨i, c, message, r, active.writes, hcommits,
        by simp [ExecutionAttempt.identity, DispatchCalculationCommand.identity, hdag, hrun]⟩

end CostEngine
