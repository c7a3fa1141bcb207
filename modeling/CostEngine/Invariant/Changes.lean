import CostEngine.Invariant.Consistent

/-! # Changes that keep the invariant

`Change L s s'` is what a transaction holding the locks `L` may do to the store when it
commits: the invariant survives, the store grows, what others may have locked stays the
same, and every attempt and version is updated at most once. This file has the changes of
one execution (prepare an attempt, move it on together with its job) and of the lifecycle
(move a version on); creating and freezing a version follow in their own files. -/

namespace CostEngine

open Relation (ReflTransGen)
open Relational (Table)

namespace Store

/-- At most one update of each attempt and each version, new attempts `PREPARED` and new versions
`DRAFT`: by a transaction that began at `now`. -/
structure Single (now : Time) (s s' : Store) : Prop where
  attempts : ∀ id a, s.executionAttempts.get? id = some a →
    ∃ a', s'.executionAttempts.get? id = some a' ∧ (a' = a ∨ AttemptStepAt now a a')
  versions : ∀ id v, s.datasetVersions.get? id = some v →
    ∃ v', s'.datasetVersions.get? id = some v' ∧ (v' = v ∨ VersionStepAt now v v')
  newAttempts : ∀ id a, s.executionAttempts.get? id = none →
    s'.executionAttempts.get? id = some a → a.PreparedAt now
  newVersions : ∀ id v, s.datasetVersions.get? id = none →
    s'.datasetVersions.get? id = some v → v.status = .draft ∧ v.createdAt = now

structure Change (now : Time) (L : List RowLock) (s s' : Store) : Prop where
  consistent : s'.Consistent
  grows : s.Grows s'
  same : ∀ r : Row, ¬ r.Held L → r.Same s s'
  single : s.Single now s'

variable {s s' s'' : Store} {L L' : List RowLock} {now : Time}

/-- Neither attempts nor versions have changed. -/
theorem Single.of_eq (hattempts : s'.executionAttempts = s.executionAttempts)
    (hversions : s'.datasetVersions = s.datasetVersions) : s.Single now s' where
  attempts _ a h := ⟨a, hattempts ▸ h, .inl rfl⟩
  versions _ v h := ⟨v, hversions ▸ h, .inl rfl⟩
  newAttempts _ _ h h' := Table.no_row h (hattempts ▸ h')
  newVersions _ _ h h' := Table.no_row h (hversions ▸ h')

theorem Single.refl : s.Single now s := .of_eq rfl rfl

theorem Change.refl (h : s.Consistent) : s.Change now L s :=
  ⟨h, .refl, fun _ _ => .refl, .refl⟩

theorem Change.mono (h : s.Change now L s') (hL : ∀ r : Row, r.Held L → r.Held L') :
    s.Change now L' s' :=
  ⟨h.consistent, h.grows, fun r hr => h.same r fun hh => hr (hL r hh), h.single⟩

/-! ### One change after another -/

/-- One change after another, when only one of them has to do with the attempts, and one
with the versions. -/
theorem Change.trans (h : s.Change now L s') (h' : s'.Change now L s'')
    (hattempts : s'.executionAttempts = s.executionAttempts)
    (hversions : s'.datasetVersions = s.datasetVersions
      ∨ s''.datasetVersions = s'.datasetVersions) : s.Change now L s'' where
  consistent := h'.consistent
  grows := h.grows.trans h'.grows
  same r hr := (h.same r hr).trans (h'.same r hr)
  single := by
    refine ⟨?_, ?_, ?_, ?_⟩
    · rw [← hattempts]
      exact h'.single.attempts
    · rcases hversions with he | he
      · rw [← he]
        exact h'.single.versions
      · rw [he]
        exact h.single.versions
    · rw [← hattempts]
      exact h'.single.newAttempts
    · rcases hversions with he | he
      · rw [← he]
        exact h'.single.newVersions
      · rw [he]
        exact h.single.newVersions

/-! ## The parts that follow from growth

Rows that were there keep what the invariant says of them; only new rows have to be
looked at. -/

/-! ### References -/

theorem References.grows (h : s.References) (hg : s.Grows s')
    (hversion : ∀ id v, s.datasetVersions.get? id = none →
      s'.datasetVersions.get? id = some v → ∃ r,
        s'.datasetSeries.get? v.datasetSeriesId = some r ∧ v.version ≤ r.lastAllocatedVersion)
    (hjob : ∀ id j, s.calculationJobs.get? id = none →
      s'.calculationJobs.get? id = some j → ∃ v r ct,
        s'.datasetVersions.get? j.outputDatasetVersionId = some v
          ∧ s'.datasetSeries.get? v.datasetSeriesId = some r
          ∧ s'.calculationTypes.get? j.calculationTypeId = some ct
          ∧ ct.domain = r.identity.domain)
    (hattempt : ∀ id a, s.executionAttempts.get? id = none →
      s'.executionAttempts.get? id = some a → s'.calculationJobs.get? a.calculationJobId ≠ none
        ∧ a.airflowDagRunId = airflowDagRunIdOf id)
    (hsnapshot : ∀ id b, s.datasetBuildSnapshots.get? id = none →
      s'.datasetBuildSnapshots.get? id = some b →
        s'.datasetVersions.get? b.datasetVersionId ≠ none)
    (hdependency : ∀ id d, s.snapshotDependencies.get? id = none →
      s'.snapshotDependencies.get? id = some d →
      s'.datasetBuildSnapshots.get? d.snapshotId ≠ none
        ∧ ∃ r v, s'.datasetSeries.get? d.upstreamDatasetSeriesId = some r
          ∧ s'.datasetVersions.get? d.upstreamDatasetVersionId = some v
          ∧ v.datasetSeriesId = d.upstreamDatasetSeriesId) : s'.References where
  version id v' hv' := by
    by_cases hv : s.datasetVersions.get? id = none
    · exact hversion id v' hv hv'
    · -- A version that was there keeps its series, whose counter only grows.
      obtain ⟨v, hv, hs⟩ := hg.versions.back hv' hv
      obtain ⟨r, hr, hle⟩ := h.version id v hv
      obtain ⟨r', hr', hsr⟩ := hg.series _ r hr
      obtain ⟨-, hseries, hnumber, -⟩ := version_columns hs
      refine ⟨r', by rwa [hseries], ?_⟩
      rw [hnumber]
      exact hle.trans (series_columns hsr).2.2
  job id j' hj' := by
    by_cases hj : s.calculationJobs.get? id = none
    · exact hjob id j' hj hj'
    · -- A job that was there keeps its version and its type, and both keep the domain.
      obtain ⟨j, hj, hs⟩ := hg.jobs.back hj' hj
      obtain ⟨v, r, ct, hv, hr, hct, hdomain⟩ := h.job id j hj
      obtain ⟨v', hv', hsv⟩ := hg.version hv
      obtain ⟨r', hr', hid⟩ := hg.seriesRow hr
      obtain ⟨ct', hct', hdomain', -⟩ := hg.type hct
      obtain ⟨-, hversion, htype, -⟩ := job_columns hs
      refine ⟨v', r', ct', by rwa [hversion], ?_, by rwa [htype], ?_⟩
      · rwa [(version_columns hsv).2.1]
      · rw [hdomain', hid, hdomain]
  attempt id a' ha' := by
    by_cases ha : s.executionAttempts.get? id = none
    · exact hattempt id a' ha ha'
    · obtain ⟨a, ha, hs⟩ := hg.attempts.back ha' ha
      obtain ⟨hj, hrun⟩ := h.attempt id a ha
      obtain ⟨-, hjob, -, -, hrun', -⟩ := attempt_columns hs
      obtain ⟨j, hj⟩ := Option.ne_none_iff_exists'.mp hj
      obtain ⟨j', hj', -⟩ := hg.job hj
      exact ⟨by rw [hjob, hj']; simp, hrun'.trans hrun⟩
  snapshot id b' hb' := by
    by_cases hb : s.datasetBuildSnapshots.get? id = none
    · exact hsnapshot id b' hb hb'
    · -- Snapshots never change.
      obtain ⟨b, hb⟩ := Option.ne_none_iff_exists'.mp hb
      obtain rfl : b = b' := Option.some.inj ((hg.snapshots id b hb).symm.trans hb')
      exact hg.version_ne_none (h.snapshot id b hb)
  dependency id d' hd' := by
    by_cases hd : s.snapshotDependencies.get? id = none
    · exact hdependency id d' hd hd'
    · obtain ⟨d, hd⟩ := Option.ne_none_iff_exists'.mp hd
      obtain ⟨hb, r, v, hr, hv, hvr⟩ := h.dependency id d hd
      have hmem : d ∈ s'.dependenciesOf d.snapshotId := by
        rw [hg.dependenciesOf _ hb]
        exact mem_dependenciesOf.mpr ⟨(Table.get?_key hd).symm ▸ hd, rfl⟩
      have hget := (mem_dependenciesOf.mp hmem).1
      have hkey := Table.get?_key hd
      rw [hkey, hd'] at hget
      obtain rfl : d' = d := Option.some.inj hget
      obtain ⟨r', hr', -⟩ := hg.seriesRow hr
      obtain ⟨v', hv', hsv⟩ := hg.version hv
      exact ⟨hg.snapshot_ne_none hb, r', v', hr', hv', (version_columns hsv).2.1.trans hvr⟩

/-! ### Series and numbers -/

theorem SeriesOk.grows (h : s.SeriesOk) (hg : s.Grows s')
    (hseries : s'.datasetSeries = s.datasetSeries)
    (hversions : ∀ id, s.datasetVersions.get? id = none → s'.datasetVersions.get? id = none)
    (hnumbers : ∀ id, (s'.versionsOf id).map (·.version) = (s.versionsOf id).map (·.version)) :
    s'.SeriesOk := by
  have hversions : ∀ id v', s'.datasetVersions.get? id = some v' →
      ∃ v, s.datasetVersions.get? id = some v ∧ ReflTransGen VersionStep v v' :=
    fun id v' hv' => hg.versions.back hv' (fun hn => by rw [hversions id hn] at hv'; cases hv')
  refine ⟨fun id r hr => ?_, by rw [hseries]; exact h.identity, ?_, ?_⟩
  · rw [hnumbers]
    exact h.numbered id r (hseries ▸ hr)
  · intro id id' v v' hv hv' hs hn
    -- Two versions with one number were two versions with that number before.
    obtain ⟨v₀, hv₀, h₀⟩ := hversions id v hv
    obtain ⟨v₀', hv₀', h₀'⟩ := hversions id' v' hv'
    obtain ⟨-, hs₀, hn₀, -⟩ := version_columns h₀
    obtain ⟨-, hs₀', hn₀', -⟩ := version_columns h₀'
    exact h.number id id' v₀ v₀' hv₀ hv₀' (by rw [← hs₀, ← hs₀', hs]) (by rw [← hn₀, ← hn₀', hn])
  · intro id id' v v' hv hv' hs ha ha'
    -- A version that is active was active before.
    obtain ⟨v₀, hv₀, h₀⟩ := hversions id v hv
    obtain ⟨v₀', hv₀', h₀'⟩ := hversions id' v' hv'
    have hs₀ := (version_columns h₀).2.1
    have hs₀' := (version_columns h₀').2.1
    exact h.active id id' v₀ v₀' hv₀ hv₀' (by rw [← hs₀, ← hs₀', hs]) (version_active h₀ ha)
      (version_active h₀' ha')

/-- An update of a version changes neither its series nor its number. -/
theorem SeriesOk.put (h : s.SeriesOk) {v v' : DatasetVersion}
    (hv : s.datasetVersions.get? v'.id = some v) (hstep : VersionStep v v') :
    (s.apply (.putDatasetVersion v')).SeriesOk := by
  refine h.grows (Grows.refl.putDatasetVersion hv hstep) rfl
    (fun _ hn => Table.get?_put_eq_none.mpr hn) fun id => Table.map_select_put fun r hr => ?_
  obtain rfl := Option.some.inj (hv.symm.trans hr)
  obtain ⟨-, hs, hn, -⟩ := hstep.columns
  exact ⟨hn.symm, by rw [hs]⟩

/-! ### A version and its build -/

/-- A version that is not updated stays as the invariant says, as long as nothing happens
to its jobs while it is no build in progress. -/
theorem VersionOk.grows {v : DatasetVersion} (h : s.VersionOk v) (href : s.References)
    (hg : s.Grows s') (hv : s.datasetVersions.get? v.id ≠ none)
    (hsame : v.status.phase = .draft ∨ v.status.phase = .abandoned →
      s'.snapshotsOf v.id = s.snapshotsOf v.id ∧ s'.jobsOf v.id = s.jobsOf v.id
        ∧ ∀ j ∈ s.jobsOf v.id, s'.attemptsOf j.id = s.attemptsOf j.id) :
    s'.VersionOk v where
  timed := h.timed
  jobs := by
    intro he
    have := hg.jobsOf v.id hv
    rw [he, List.map_nil] at this
    -- The jobs keep their keys, so there is still one.
    exact h.jobs (List.map_eq_nil_iff.mp this.symm)
  build := by
    have hb := h.build
    have hunfrozen : s'.snapshotsOf v.id = s.snapshotsOf v.id →
        s'.jobsOf v.id = s.jobsOf v.id →
        (∀ j ∈ s.jobsOf v.id, s'.attemptsOf j.id = s.attemptsOf j.id) →
        s.Unfrozen v.id → s'.Unfrozen v.id := by
      rintro h₁ h₂ h₃ ⟨hs, hj⟩
      refine ⟨h₁.trans hs, fun j hj' => ?_⟩
      rw [h₂] at hj'
      exact ⟨(hj j hj').1, (h₃ j hj').trans (hj j hj').2⟩
    unfold Store.Build at hb ⊢
    cases hp : v.status.phase with
    | draft =>
        rw [hp] at hb
        obtain ⟨h₁, h₂, h₃⟩ := hsame (.inl hp)
        exact hunfrozen h₁ h₂ h₃ hb
    | building =>
        rw [hp] at hb
        -- What was frozen stays frozen, whatever becomes of the attempts.
        exact Frozen.grows href hg hv hb
    | settled =>
        rw [hp] at hb
        refine ⟨Frozen.grows href hg hv hb.1, fun j' hj' => ?_⟩
        obtain ⟨j, hj, hs⟩ := hg.jobsOf_back hv hj'
        -- A job that has succeeded stays so.
        exact job_succeeded hs (hb.2 j hj)
    | abandoned =>
        rw [hp] at hb
        obtain ⟨h₁, h₂, h₃⟩ := hsame (.inr hp)
        refine ⟨hb.1.imp (hunfrozen h₁ h₂ h₃) (Frozen.grows href hg hv), fun j hj a ha => ?_⟩
        rw [h₂] at hj
        rw [h₃ j hj] at ha
        exact hb.2 j hj a ha

/-! ## Preparing an attempt -/

/-- A new attempt of a job with no active one, in a version being built. -/
theorem Change.insertAttempt (h : s.Consistent) {a : ExecutionAttempt} {j : CalculationJob}
    {v : DatasetVersion} (hnew : s.executionAttempts.get? a.id = none)
    (hj : s.calculationJobs.get? a.calculationJobId = some j)
    (hv : s.datasetVersions.get? j.outputDatasetVersionId = some v)
    (hbuilding : v.status = .building) (hsucceeded : j.status ≠ .succeeded)
    (hactive : ∀ b ∈ s.attemptsOf a.calculationJobId, b.status.isActive = false)
    (hborn : a.PreparedAt now)
    (hnumber : a.attemptNumber = (s.attemptsOf a.calculationJobId).length + 1)
    (hrun : a.airflowDagRunId = airflowDagRunIdOf a.id)
    (hL : Row.Held (.executionAttempt a.id) L)
    (hL' : Row.Held (.calculationJob a.calculationJobId) L) :
    s.Change now L (s.apply (.insertExecutionAttempt a)) := by
  -- Jobs of abandoned versions get no attempt, and this one is being built.
  have hphase : s.phaseOf? a.calculationJobId = some .building := by
    rw [phaseOf?_eq hj hv, hbuilding]
    rfl
  have hg : s.Grows (s.apply (.insertExecutionAttempt a)) :=
    Grows.refl.insertExecutionAttempt hnew (by rw [hphase]; decide)
  have hattemptsOf : ∀ id, id ≠ a.calculationJobId →
      (s.apply (.insertExecutionAttempt a)).attemptsOf id = s.attemptsOf id := by
    intro id hne
    exact Table.select_insert_of_not (by simpa using hne.symm)
  have hget : ∀ id, (s.apply (.insertExecutionAttempt a)).executionAttempts.get? id
      = if a.id = id then some a else s.executionAttempts.get? id :=
    fun id => Table.get?_insert hnew
  have href : (s.apply (.insertExecutionAttempt a)).References := by
    refine h.references.grows hg ?_ ?_ ?_ ?_ ?_
    · exact fun id v h₁ h₂ => Table.no_row h₁ h₂
    · exact fun id v h₁ h₂ => Table.no_row h₁ h₂
    · intro id b h₁ h₂
      rw [hget] at h₂
      split at h₂
      · rename_i hid
        cases h₂
        subst hid
        exact ⟨Table.row_ne_none hj, hrun⟩
      · rw [h₁] at h₂; cases h₂
    · exact fun id v h₁ h₂ => Table.no_row h₁ h₂
    · exact fun id v h₁ h₂ => Table.no_row h₁ h₂
  refine ⟨⟨href, h.series.grows hg rfl (fun _ hn => hn) (fun _ => rfl), ?_, ?_⟩, hg, ?_, ?_⟩
  · intro id j' hj'
    -- The history of its job is one longer, all others are as they were.
    by_cases hid : id = a.calculationJobId
    · subst hid
      obtain rfl : j = j' := Option.some.inj (hj.symm.trans hj')
      have hh := h.history _ j hj
      have := hh.prepare (hh.all_dead hsucceeded hactive) hnumber hborn.status
      show History ((s.executionAttempts.insert a).select _) _
      rw [Table.select_insert hnew, List.filter_cons_of_pos (by simp)]
      exact this
    · rw [hattemptsOf id hid]
      exact h.history id j' hj'
  · intro id v' hv'
    have hid : v'.id = id := Table.get?_key hv'
    refine (h.version id v' hv').grows h.references hg (hid.symm ▸ Table.row_ne_none hv') ?_
    refine fun hp => ⟨rfl, rfl, fun j' hj' => hattemptsOf _ fun he => ?_⟩
    -- The job of the new attempt belongs to a version being built.
    obtain ⟨hj', hjv⟩ := mem_jobsOf.mp hj'
    rw [he, hj] at hj'
    obtain rfl := Option.some.inj hj'
    rw [hjv, hid] at hv
    obtain rfl := Option.some.inj (hv.symm.trans hv')
    rw [hbuilding] at hp
    rcases hp with hp | hp <;> cases hp
  · intro r hr
    refine same_insertExecutionAttempt hnew (fun he => hr (he ▸ hL)) (fun he => hr (he ▸ hL'))
  · refine ⟨fun id b hb => ⟨b, Table.get?_insert_of_some hb, .inl rfl⟩, Single.refl.versions,
      fun id b hn hb => ?_, Single.refl.newVersions⟩
    rcases Table.of_get?_insert hb with hb | rfl
    · exact Table.no_row hn hb
    · exact hborn

/-! ## Moving an attempt on -/

/-! ### The history of the job -/

/-- The newest attempt of a job is replaced in its list. -/
theorem attemptsOf_put (h : s.Consistent) {a a' : ExecutionAttempt}
    (ha : s.executionAttempts.get? a'.id = some a) (hstep : AttemptStep a a') :
    ∃ init, s.attemptsOf a.calculationJobId = init ++ [a]
      ∧ (s.apply (.putExecutionAttempt a')).attemptsOf a.calculationJobId = init ++ [a'] := by
  obtain ⟨j, hj, hh, hmem⟩ := h.jobOf ha
  obtain ⟨hid, hjob, -⟩ := hstep.columns
  have hdead : a.status.isDead = false := by
    have := hstep.active
    revert this
    cases a.status <;> decide
  obtain ⟨init, hinit⟩ := hh.eq_append_of_not_dead hmem hdead
  refine ⟨init, hinit, ?_⟩
  rw [hinit] at hh
  have hput : (s.apply (.putExecutionAttempt a')).attemptsOf a.calculationJobId
      = (s.attemptsOf a.calculationJobId).map fun r => if r.id = a'.id then a' else r := by
    refine Table.select_put_of_mem (fun r hr => ?_) (by simp [hjob])
    obtain rfl : a = r := Option.some.inj (ha.symm.trans hr)
    simp
  rw [hput, hinit, List.map_append, List.map_singleton, if_pos hid.symm]
  congr 1
  conv_rhs => rw [← List.map_id init]
  -- The earlier attempts are other rows.
  refine List.map_congr_left fun r hr => if_neg fun hrid => ?_
  have hra : r ∈ s.attemptsOf a.calculationJobId := by rw [hinit]; simp [hr]
  have hget := (mem_attemptsOf.mp hra).1
  rw [hrid, ha] at hget
  obtain rfl := Option.some.inj hget
  rw [hh.init_dead _ hr] at hdead
  cases hdead

/-! ### The attempt and its job -/

/-- An attempt moves on, and its job follows: `j'` shows the status that the history with
the new attempt asks for. -/
theorem Change.moveAttempt (h : s.Consistent) {a a' : ExecutionAttempt}
    {j j' : CalculationJob} (ha : s.executionAttempts.get? a'.id = some a)
    (hstep : AttemptStepAt now a a') (hj : s.calculationJobs.get? j'.id = some j)
    (hjob : a.calculationJobId = j'.id) (hstepj : j' = j ∨ JobStep j j')
    (hres : j'.resolvedDependencyDefinitionVersionId = j.resolvedDependencyDefinitionVersionId)
    (hstatus : ∀ init, s.attemptsOf j'.id = init ++ [a] →
      j'.status = jobStatusOf (init.map (·.status) ++ [a'.status]))
    (hL : Row.Held (.executionAttempt a'.id) L) (hL' : Row.Held (.calculationJob j'.id) L) :
    s.Change now L ((s.apply (.putExecutionAttempt a')).apply (.putCalculationJob j')) := by
  obtain ⟨hid, hjob', -⟩ := hstep.step.columns
  have hmem : a ∈ s.attemptsOf j'.id := hjob ▸ mem_attemptsOf_of_get? ha
  obtain ⟨v, hv, hvok, hbuilding, -⟩ := h.building_of_active hj hmem hstep.step.active
  -- Jobs of abandoned versions are left alone, and this one is being built.
  have hphase : s.phaseOf? a'.calculationJobId = some .building := by
    rw [hjob', hjob, phaseOf?_eq hj hv, hbuilding]
    rfl
  have hg₁ : s.Grows (s.apply (.putExecutionAttempt a')) :=
    Grows.refl.putExecutionAttempt ha hstep.step (by rw [hphase]; decide)
  have hcolumns : j'.id = j.id ∧ j'.outputDatasetVersionId = j.outputDatasetVersionId
      ∧ j'.calculationTypeId = j.calculationTypeId := by
    rcases hstepj with rfl | hsj
    · exact ⟨rfl, rfl, rfl⟩
    · exact ⟨hsj.columns.1, hsj.columns.2.1, hsj.columns.2.2.1⟩
  have hg : s.Grows ((s.apply (.putExecutionAttempt a')).apply (.putCalculationJob j')) := by
    -- A job that is put back as it is leaves the store as it was.
    rcases hstepj with rfl | hsj
    · have hself : s.calculationJobs.put j' = s.calculationJobs := Table.put_self hj
      have : (s.apply (.putExecutionAttempt a')).apply (.putCalculationJob j')
          = s.apply (.putExecutionAttempt a') := by
        simp only [Store.apply, hself]
      rwa [this]
    · exact hg₁.putCalculationJob hj hsj
  obtain ⟨init, hinit, hinit'⟩ := attemptsOf_put h ha hstep.step
  rw [hjob] at hinit hinit'
  have hattemptsOf : ∀ id, id ≠ j'.id →
      (s.apply (.putExecutionAttempt a')).attemptsOf id = s.attemptsOf id := by
    intro id hne
    refine Table.select_put_of_not (fun r hr => ?_) (by simp [hjob', hjob, hne.symm])
    obtain rfl : a = r := Option.some.inj (ha.symm.trans hr)
    simp [hjob, hne.symm]
  have hgetj : ∀ id, ((s.apply (.putExecutionAttempt a')).apply
      (.putCalculationJob j')).calculationJobs.get? id
      = if j'.id = id then some j' else s.calculationJobs.get? id := by
    intro id
    refine Table.get?_put.trans ?_
    split
    · rename_i hid
      rw [← hid]
      exact congrArg _ hj
    · rfl
  refine ⟨⟨?_, h.series.grows hg rfl (fun _ hn => hn) (fun _ => rfl), ?_, ?_⟩, hg, ?_, ?_⟩
  · refine h.references.grows hg ?_ ?_ ?_ ?_ ?_
    · exact fun id v h₁ h₂ => Table.no_row h₁ h₂
    · exact fun id v h₁ h₂ => Table.no_row (Table.get?_put_eq_none.mpr h₁) h₂
    · exact fun id v h₁ h₂ => Table.no_row (Table.get?_put_eq_none.mpr h₁) h₂
    · exact fun id v h₁ h₂ => Table.no_row h₁ h₂
    · exact fun id v h₁ h₂ => Table.no_row h₁ h₂
  · intro id j'' hj''
    -- Its own history ends in the new status, the other histories are the old ones.
    rw [hgetj] at hj''
    split at hj''
    · rename_i hid
      cases hj''
      subst hid
      show History ((s.apply (.putExecutionAttempt a')).attemptsOf j'.id) _
      have hh := h.history _ j hj
      rw [hinit] at hh
      rw [hinit', hstatus init hinit]
      exact hh.move hstep.step.columns.2.2.1
    · rename_i hne
      show History ((s.apply (.putExecutionAttempt a')).attemptsOf id) _
      rw [hattemptsOf id (Ne.symm hne)]
      exact h.history id j'' hj''
  · intro id v' hv'
    have hid : v'.id = id := Table.get?_key hv'
    refine (h.version id v' hv').grows h.references hg (hid.symm ▸ Table.row_ne_none hv') ?_
    intro hp
    -- The version of the job is being built, so `v'` is another one.
    have hne : j'.outputDatasetVersionId ≠ v'.id := by
      intro he
      rw [← hcolumns.2.1, he, hid] at hv
      obtain rfl := Option.some.inj (hv.symm.trans hv')
      rw [hbuilding] at hp
      rcases hp with hp | hp <;> cases hp
    refine ⟨rfl, ?_, fun k hk => ?_⟩
    · refine Table.select_put_of_not (fun r hr => ?_) (by simp [hne])
      obtain rfl : j = r := Option.some.inj (hj.symm.trans hr)
      simp [← hcolumns.2.1, hne]
    · refine hattemptsOf _ fun he => ?_
      obtain ⟨hk, hkv⟩ := mem_jobsOf.mp hk
      rw [he, hj] at hk
      obtain rfl := Option.some.inj hk
      exact hne (hcolumns.2.1.trans hkv)
  · intro r hr
    have hr' : r ≠ .calculationJob a'.calculationJobId := by
      rw [hjob', hjob]
      exact fun he => hr (he ▸ hL')
    have h₁ : r.Same s (s.apply (.putExecutionAttempt a')) :=
      same_putExecutionAttempt ha hjob'.symm (fun he => hr (he ▸ hL)) hr'
    exact h₁.trans (same_putCalculationJob hj hcolumns.2.1.symm hcolumns.2.2.symm
      (fun he => hr (he ▸ hL')) (.inr hres.symm))
  · -- One step for the attempt, and none for the versions.
    refine ⟨fun id b hb => ?_, Single.refl.versions,
      fun id b hn hb => Table.no_row (Table.get?_put_eq_none.mpr hn) hb, Single.refl.newVersions⟩
    by_cases hbid : a'.id = id
    · subst hbid
      obtain rfl : a = b := Option.some.inj (ha.symm.trans hb)
      refine ⟨a', ?_, .inr hstep⟩
      exact Table.get?_put.trans (by rw [if_pos rfl, ha]; rfl)
    · exact ⟨b, Table.get?_put.trans (by rw [if_neg hbid, hb]), .inl rfl⟩

/-! ### The attempt alone -/

/-- An attempt moves on while its job stays as it is. -/
theorem Change.moveAttemptOnly (h : s.Consistent) {a a' : ExecutionAttempt}
    {j : CalculationJob} (ha : s.executionAttempts.get? a'.id = some a)
    (hstep : AttemptStepAt now a a') (hj : s.calculationJobs.get? a.calculationJobId = some j)
    (hwaiting : a.status = .prepared ∨ a.status = .dispatching)
    (hwaiting' : a'.status = .dispatching ∨ a'.status = .dispatchFailed)
    (hL : Row.Held (.executionAttempt a'.id) L)
    (hL' : Row.Held (.calculationJob a.calculationJobId) L) :
    s.Change now L (s.apply (.putExecutionAttempt a')) := by
  have hid : j.id = a.calculationJobId := Table.get?_key hj
  have hself : s.calculationJobs.put j = s.calculationJobs := Table.put_self (hid.symm ▸ hj)
  have heq : (s.apply (.putExecutionAttempt a')).apply (.putCalculationJob j)
      = s.apply (.putExecutionAttempt a') := by
    simp only [Store.apply, hself]
  rw [← heq]
  refine Change.moveAttempt h ha hstep (hid.symm ▸ hj) hid.symm (.inl rfl) rfl ?_ hL
    (hid.symm ▸ hL')
  intro init hinit
  have hh := h.history _ j hj
  rw [← hid, hinit] at hh
  -- Waiting before and after, so the job shows how the earlier attempts ended.
  rw [hh.status_of_waiting (hwaiting.imp_right .inl), jobStatusOf_append]
  rcases hwaiting' with h' | h' <;> rw [h']

end Store

/-! ## Moving a version on -/

/-! ### The timestamps -/

/-- A lifecycle update sets the timestamp of its target and no other. -/
theorem DatasetVersion.Timed.columns {v : DatasetVersion} (h : v.Timed)
    {target : LifecycleTarget} (hs : v.status ∈ target.sources) (now : Time) :
    (target.columns now v).Timed := by
  have hb := h.building
  have hv := h.validating
  have hp := h.published
  have hr := h.rejected
  have ha := h.abandoned
  cases target with
  -- One case per target: the status it comes from says which columns are empty.
  | validating =>
      rw [List.mem_singleton.mp hs] at hb hv hp hr ha
      exact ⟨by simp [LifecycleTarget.columns, DatasetVersionStatus.phase],
        fun _ => hb (.inl rfl), by simp [LifecycleTarget.columns, DatasetVersionStatus.phase],
        by simpa [LifecycleTarget.columns] using hp,
        by simpa [LifecycleTarget.columns] using hr,
        by simpa [LifecycleTarget.columns] using ha⟩
  | published =>
      rw [List.mem_singleton.mp hs] at hb hv hp hr ha
      exact ⟨by simp [LifecycleTarget.columns, DatasetVersionStatus.phase],
        fun _ => hb (.inr rfl),
        by simpa [LifecycleTarget.columns, DatasetVersionStatus.phase] using hv,
        by simp [LifecycleTarget.columns],
        by simpa [LifecycleTarget.columns] using hr,
        by simpa [LifecycleTarget.columns] using ha⟩
  | rejected =>
      rw [List.mem_singleton.mp hs] at hb hv hp hr ha
      exact ⟨by simp [LifecycleTarget.columns, DatasetVersionStatus.phase],
        fun _ => hb (.inr rfl),
        by simpa [LifecycleTarget.columns, DatasetVersionStatus.phase] using hv,
        by simpa [LifecycleTarget.columns] using hp,
        by simp [LifecycleTarget.columns],
        by simpa [LifecycleTarget.columns] using ha⟩
  | abandoned =>
      have hphase : v.status = .draft ∨ v.status = .building := by
        rcases List.mem_cons.mp hs with h | h
        · exact .inl h
        · exact .inr (List.mem_singleton.mp h)
      rcases hphase with h' | h' <;> rw [h'] at hv hp hr
      all_goals
        exact ⟨by simp [LifecycleTarget.columns, DatasetVersionStatus.phase],
          by simp [LifecycleTarget.columns, DatasetVersionStatus.phase],
          by simpa [LifecycleTarget.columns, DatasetVersionStatus.phase] using hv,
          by simpa [LifecycleTarget.columns] using hp,
          by simpa [LifecycleTarget.columns] using hr,
          by simp [LifecycleTarget.columns]⟩

namespace Store

variable {s : Store} {L : List RowLock}

/-! ### The version -/

theorem Change.moveVersion (h : s.Consistent) {v : DatasetVersion} {id : Uuid}
    (hv : s.datasetVersions.get? id = some v) (target : LifecycleTarget) (now : Time)
    (hsource : v.status ∈ target.sources)
    (hsucceeded : target = .validating → ∀ j ∈ s.jobsOf id, j.status = .succeeded)
    (hover : target = .abandoned →
      ∀ j ∈ s.jobsOf id, ∀ a ∈ s.attemptsOf j.id, a.status.isActive = false)
    (hL : Row.Held (.datasetVersion id) L)
    (hseries : target ≠ .validating → Row.Held (.datasetSeries v.datasetSeriesId) L)
    (hjobs : target = .validating ∨ target = .abandoned →
      ∀ j ∈ s.jobsOf id, Row.Held (.calculationJob j.id) L) :
    s.Change now L (s.apply (.putDatasetVersion (target.columns now v))) := by
  have hstepAt : VersionStepAt now v (target.columns now v) := .lifecycle v target hsource
  have hstep := hstepAt.step
  obtain ⟨hid, hs, -, -⟩ := hstep.columns
  obtain rfl : v.id = id := Table.get?_key hv
  have hv' : s.datasetVersions.get? (target.columns now v).id = some v := hid.symm ▸ hv
  have hg : s.Grows (s.apply (.putDatasetVersion (target.columns now v))) :=
    Grows.refl.putDatasetVersion hv' hstep
  have hget : ∀ id', (s.apply (.putDatasetVersion (target.columns now v))).datasetVersions.get?
      id' = if v.id = id' then some (target.columns now v) else s.datasetVersions.get? id' := by
    intro id'
    -- The version that is moved, or one that is not.
    refine Table.get?_put.trans ?_
    rw [hid]
    split
    · rename_i he
      rw [← he, hv]
      rfl
    · rfl
  have hok := h.version _ v hv
  refine ⟨⟨?_, h.series.put hv' hstep, h.history, ?_⟩, hg, ?_, ?_⟩
  · refine h.references.grows hg ?_ ?_ ?_ ?_ ?_
    · exact fun id' v h₁ h₂ => Table.no_row (Table.get?_put_eq_none.mpr h₁) h₂
    all_goals exact fun id' v h₁ h₂ => Table.no_row h₁ h₂
  · intro id' w hw
    rw [hget] at hw
    split at hw
    · cases hw
      -- Its own build: what the target asks of it is what the command has checked.
      refine ⟨hok.timed.columns hsource now, ?_, ?_⟩
      · rw [hid]
        exact hok.jobs
      · have hfrozen : s.Frozen v.id → _ := Frozen.grows h.references hg (Table.row_ne_none hv)
        have hb := hok.build
        unfold Store.Build at hb ⊢
        rw [hid]
        cases target with
        | validating =>
            rw [List.mem_singleton.mp hsource] at hb
            exact ⟨hfrozen hb, hsucceeded rfl⟩
        | published =>
            rw [List.mem_singleton.mp hsource] at hb
            exact ⟨hfrozen hb.1, hb.2⟩
        | rejected =>
            rw [List.mem_singleton.mp hsource] at hb
            exact ⟨hfrozen hb.1, hb.2⟩
        | abandoned =>
            rcases List.mem_cons.mp hsource with hd | hd
            · rw [hd] at hb
              exact ⟨.inl hb, hover rfl⟩
            · rw [List.mem_singleton.mp hd] at hb
              exact ⟨.inr (hfrozen hb), hover rfl⟩
    · have hwid : w.id = id' := Table.get?_key hw
      exact (h.version id' w hw).grows h.references hg (hwid.symm ▸ Table.row_ne_none hw)
        fun _ => ⟨rfl, rfl, fun _ _ => rfl⟩
  · -- Under the lock of the version, and of whatever else shows the change.
    intro r hr
    refine same_putDatasetVersion hv' hs.symm (fun he => hr (he ▸ hid.symm ▸ hL)) ?_ ?_
    · by_cases ht : target = .validating
      · subst ht
        refine .inr ?_
        simp [DatasetVersion.visible, LifecycleTarget.columns, List.mem_singleton.mp hsource,
          DatasetVersionStatus.isActive]
      · exact .inl fun he => hr (he ▸ hs.symm ▸ hseries ht)
    · cases target with
      | validating => exact .inr fun j hj he => hr (he ▸ hjobs (.inl rfl) j hj)
      | abandoned => exact .inr fun j hj he => hr (he ▸ hjobs (.inr rfl) j hj)
      | published => exact .inl (by rw [List.mem_singleton.mp hsource]; rfl)
      | rejected => exact .inl (by rw [List.mem_singleton.mp hsource]; rfl)
  · refine ⟨Single.refl.attempts, fun id' w hw => ?_, Single.refl.newAttempts,
      fun id' w hn hw => Table.no_row (Table.get?_put_eq_none.mpr hn) hw⟩
    rw [hget]
    split
    · rename_i he
      subst he
      obtain rfl := Option.some.inj (hv.symm.trans hw)
      exact ⟨_, rfl, .inr hstepAt⟩
    · exact ⟨w, hw, .inl rfl⟩

end Store

end CostEngine
