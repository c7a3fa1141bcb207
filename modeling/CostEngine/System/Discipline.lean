import CostEngine.Concurrency.Soundness
import CostEngine.Invariant.Freezing
import CostEngine.System.World

/-! # The invariant of the system

`Invariant` adds to the consistency of the store what ties it to the executor: every
command sent was built from the frozen inputs of an attempt that has left `PREPARED`, the
executor has seen only identities it was sent, and, if it honours its contract, every
attempt agrees with the run of its identity. `discipline` puts invariant, growth and
guards together for the logic of transactions. -/

namespace CostEngine

open Relation (ReflTransGen)
open Relational (Table)
open Concurrency (Discipline Outcome Ends)

/-! ## The executor only moves forward -/

structure World.Grows (w w' : World) : Prop where
  clock : w.clock ≤ w'.clock
  executor : ∀ i, ReflTransGen ExternalExecution.Step (w.executor i) (w'.executor i)
  sent : ∀ c ∈ w.sent, c ∈ w'.sent

theorem World.Grows.refl {w : World} : w.Grows w :=
  ⟨Nat.le_refl _, fun _ => .refl, fun _ h => h⟩

theorem World.Grows.trans {w w' w'' : World} (h : w.Grows w') (h' : w'.Grows w'') :
    w.Grows w'' :=
  ⟨h.clock.trans h'.clock, fun i => (h.executor i).trans (h'.executor i),
    fun c hc => h'.sent c (h.sent c hc)⟩

theorem World.Step.grows {w w' : World} (h : w.Step w') : w.Grows w' := by
  cases h with
  | tick d => exact ⟨Nat.le_add_right _ _, fun _ => .refl, fun _ h => h⟩
  | execute command x hc hx =>
      refine ⟨Nat.le_refl _, fun i => ?_, fun _ h => h⟩
      by_cases hi : i = command.identity
      · subst hi
        simpa using ReflTransGen.single hx
      · simpa [hi] using ReflTransGen.refl

/-- What stays true of an identity once it is. -/
inductive ExternalExecution.Settled : ExternalExecution → Prop
  | rejected : Settled .rejected
  | succeeded : Settled .succeeded
  | failed : Settled .failed

theorem ExternalExecution.settled_stays {x y : ExternalExecution}
    (h : ReflTransGen ExternalExecution.Step x y) (hx : x.Settled) : y = x := by
  induction h with
  | refl => rfl
  | tail _ hs ih =>
      subst ih
      cases hx <;> cases hs

theorem ExternalExecution.runExists_stays {x y : ExternalExecution}
    (h : ReflTransGen ExternalExecution.Step x y) (hx : x.runExists = true) :
    y.runExists = true := by
  induction h with
  | refl => exact hx
  | tail _ hs ih =>
      cases hs with
      | reject => cases ih
      | create => rfl
      | succeed => rfl
      | fail => rfl

/-! ## Agreement with the executor -/

/-- What a local status says about the identity at the executor. -/
def ExecutionAttemptStatus.Agrees : ExecutionAttemptStatus → ExternalExecution → Prop
  | .prepared, _ => True
  | .dispatching, _ => True
  | .accepted, x => x.runExists = true
  | .succeeded, x => x = .succeeded
  | .failed, x => x = .failed
  | .dispatchFailed, x => x = .rejected

theorem ExecutionAttemptStatus.Agrees.step {status : ExecutionAttemptStatus}
    {x y : ExternalExecution} (h : status.Agrees x) (hs : x.Step y) : status.Agrees y := by
  cases status with
  | prepared => trivial
  | dispatching => trivial
  | accepted => exact ExternalExecution.runExists_stays (.single hs) h
  | succeeded => cases h; cases hs
  | failed => cases h; cases hs
  | dispatchFailed => cases h; cases hs

/-! ## Commands -/

/-- The command carries the frozen inputs of an attempt that is past `PREPARED`. -/
structure Store.Dispatched (s : Store) (c : DispatchCalculationCommand) : Prop where
  attempt : ∃ a, s.executionAttempts.get? c.executionAttemptId = some a
    ∧ a.calculationJobId = c.jobId ∧ a.attemptNumber = c.attemptNumber
    ∧ a.airflowDagId = c.airflowDagId ∧ a.airflowDagRunId = c.airflowDagRunId
    ∧ a.status ≠ .prepared
  job : ∃ j ct, s.calculationJobs.get? c.jobId = some j
    ∧ j.outputDatasetVersionId = c.datasetVersionId
    ∧ j.calculationTypeId = c.calculationTypeId
    ∧ j.resolvedDependencyDefinitionVersionId = some c.resolvedDependencyDefinitionVersionId
    ∧ s.calculationTypes.get? c.calculationTypeId = some ct ∧ ct.code = c.calculationTypeCode
  definition : ∃ d, s.dependencyDefinitions.get? d.id = some d ∧ d.status = .published
    ∧ d.id = c.resolvedDependencyDefinitionVersionId
  snapshot : ∃ b, s.snapshotsOf c.datasetVersionId = [b] ∧ b.id = c.datasetBuildSnapshotId
  upstream : List.Forall₂
    (fun domain f => (s.frozenDependencies c.datasetBuildSnapshotId).filter
      (·.identity.domain = domain) = [f])
    (s.requiredDomainsOf c.resolvedDependencyDefinitionVersionId) c.upstreamDatasetVersions

namespace Store.Dispatched

variable {s s' : Store} {c : DispatchCalculationCommand}

theorem snapshotId_ne_none (h : s.Dispatched c) :
    s.datasetBuildSnapshots.get? c.datasetBuildSnapshotId ≠ none := by
  obtain ⟨b, hb, hid⟩ := h.snapshot
  have : b ∈ s.snapshotsOf c.datasetVersionId := by rw [hb]; simp
  exact hid ▸ Table.row_ne_none (Store.mem_snapshotsOf.mp this).1

theorem grows (h : s.Dispatched c) (href : s.References) (hg : s.Grows s') :
    s'.Dispatched c where
  attempt := by
    obtain ⟨a, ha, h₁, h₂, h₃, h₄, h₅⟩ := h.attempt
    obtain ⟨a', ha', hs⟩ := hg.attempt ha
    obtain ⟨-, i₁, i₂, i₃, i₄, -⟩ := attempt_columns hs
    exact ⟨a', ha', i₁.trans h₁, i₂.trans h₂, i₃.trans h₃, i₄.trans h₄,
      attempt_not_prepared hs h₅⟩
  job := by
    obtain ⟨j, ct, hj, h₁, h₂, h₃, hct, h₄⟩ := h.job
    obtain ⟨j', hj', hs⟩ := hg.job hj
    obtain ⟨-, i₁, i₂, -, i₃⟩ := job_columns hs
    obtain ⟨ct', hct', -, hcode⟩ := hg.type hct
    exact ⟨j', ct', hj', i₁.trans h₁, i₂.trans h₂, i₃ _ h₃, hct', hcode.trans h₄⟩
  definition := by
    obtain ⟨d, hd, hp, hid⟩ := h.definition
    exact ⟨d, (hg.definitions _ d hd hp).1, hp, hid⟩
  snapshot := by
    obtain ⟨b, hb, hid⟩ := h.snapshot
    exact ⟨b, (hg.snapshotsOf _ (by rw [hb]; simp)).trans hb, hid⟩
  upstream := by
    obtain ⟨d, hd, hp, hid⟩ := h.definition
    rw [Store.frozenDependencies_grows href hg h.snapshotId_ne_none, ← hid,
      Store.requiredDomainsOf_grows hg hd hp, hid]
    exact h.upstream

end Store.Dispatched

/-! ## The invariant -/

structure Invariant (honours : Prop) (g : Moment) : Prop where
  consistent : g.db.Consistent
  sent : ∀ c ∈ g.world.sent, g.db.Dispatched c
  seen : ∀ i, g.world.executor i ≠ .unseen → ∃ c ∈ g.world.sent, c.identity = i
  agrees : honours → ∀ id a, g.db.executionAttempts.get? id = some a →
    a.status.Agrees (g.world.executor a.identity)

/-- What every later moment keeps. -/
structure Moment.Grows (g g' : Moment) : Prop where
  db : g.db.Grows g'.db
  world : g.world.Grows g'.world

theorem Moment.Grows.refl {g : Moment} : Moment.Grows g g := ⟨.refl, .refl⟩

theorem Moment.Grows.trans {g g' g'' : Moment} (h : Moment.Grows g g')
    (h' : Moment.Grows g' g'') : Moment.Grows g g'' := ⟨h.db.trans h'.db, h.world.trans h'.world⟩

theorem Invariant.world {honours : Prop} {g : Moment} (h : Invariant honours g) {w : World}
    (hw : g.world.Step w) : Invariant honours { g with world := w } where
  consistent := h.consistent
  sent := by
    cases hw with
    | tick d => exact h.sent
    | execute command x hc hx => exact h.sent
  seen := by
    cases hw with
    | tick d => exact h.seen
    | execute command x hc hx =>
        intro i hi
        by_cases he : i = command.identity
        · exact ⟨command, hc, he.symm⟩
        · exact h.seen i (by simpa [he] using hi)
  agrees hh id a ha := by
    have := h.agrees hh id a ha
    cases hw with
    | tick d => exact this
    | execute command x hc hx =>
        by_cases he : a.identity = command.identity
        · rw [he] at this
          simpa [he] using this.step hx
        · simpa [he] using this

/-! ## Configuration -/

theorem Store.ConfigStep.grows {s s' : Store} {locks : List RowLock}
    (h : s.ConfigStep locks s') : s.Grows s' where
  types := h.type_kept
  definitions := h.definition_kept
  series := by rw [h.datasetSeries]; exact .refl
  versions := by rw [h.datasetVersions]; exact .refl
  jobs := by rw [h.calculationJobs]; exact .refl
  snapshots := by rw [h.datasetBuildSnapshots]; exact fun _ _ hb => hb
  attempts := by rw [h.executionAttempts]; exact .refl
  jobsOf _ _ := by unfold Store.jobsOf; rw [h.calculationJobs]
  snapshotsOf _ _ := by unfold Store.snapshotsOf; rw [h.datasetBuildSnapshots]
  dependenciesOf _ _ := by unfold Store.dependenciesOf; rw [h.snapshotDependencies]
  attemptsOf jobId := by
    have hsame : s'.attemptsOf jobId = s.attemptsOf jobId := by
      unfold Store.attemptsOf
      rw [h.executionAttempts]
    exact hsame ▸ List.prefix_rfl
  abandoned _ _ := by unfold Store.attemptsOf; rw [h.executionAttempts]

theorem Store.ConfigStep.consistent {s s' : Store} {locks : List RowLock}
    (h : s.ConfigStep locks s') (hs : s.Consistent) : s'.Consistent := by
  have hg := h.grows
  refine ⟨hs.references.grows hg ?_ ?_ ?_ ?_ ?_, hs.series.grows hg h.datasetSeries ?_ ?_, ?_, ?_⟩
  · rw [h.datasetVersions]; exact fun _ _ h₁ h₂ => Table.no_row h₁ h₂
  · rw [h.calculationJobs]; exact fun _ _ h₁ h₂ => Table.no_row h₁ h₂
  · rw [h.executionAttempts]; exact fun _ _ h₁ h₂ => Table.no_row h₁ h₂
  · rw [h.datasetBuildSnapshots]; exact fun _ _ h₁ h₂ => Table.no_row h₁ h₂
  · rw [h.snapshotDependencies]; exact fun _ _ h₁ h₂ => Table.no_row h₁ h₂
  · rw [h.datasetVersions]; exact fun _ hn => hn
  · unfold Store.versionsOf; rw [h.datasetVersions]; exact fun _ => rfl
  · unfold Store.attemptsOf
    rw [h.calculationJobs, h.executionAttempts]
    exact hs.history
  · rw [h.datasetVersions]
    intro id v hv
    have hid : v.id = id := Table.get?_key hv
    refine (hs.version id v hv).grows hs.references hg (hid.symm ▸ Table.row_ne_none hv) ?_
    unfold Store.snapshotsOf Store.jobsOf Store.attemptsOf
    rw [h.datasetBuildSnapshots, h.calculationJobs, h.executionAttempts]
    exact fun _ => ⟨rfl, rfl, fun _ _ => rfl⟩

theorem Store.ConfigStep.same {s s' : Store} {locks : List RowLock}
    (h : s.ConfigStep locks s') {l : RowLock} (hl : ∀ m ∈ locks, ¬ m.conflict l)
    (hmode : l.mode.exclusive = true) : l.row.Same s s' := by
  cases hr : l.row with
  | calculationType id =>
      rcases h.locked id with ⟨m, hm, hrow, hm'⟩ | hsame
      · exact absurd ⟨hrow.trans hr.symm, LockMode.exclusive_conflicts hm' hmode⟩ (hl m hm)
      · exact hsame
  | dependencyDefinition id => trivial
  | seriesIdentity identity => simp [Row.Same, Store.seriesWith?, h.datasetSeries]
  | datasetSeries id => simp [Row.Same, Store.versionsOf, h.datasetSeries, h.datasetVersions]
  | datasetVersion id =>
      simp [Row.Same, Store.snapshotsOf, Store.jobsOf, h.datasetVersions,
        h.datasetBuildSnapshots, h.calculationJobs]
  | calculationJob id =>
      simp [Row.Same, Store.attemptsOf, Store.phaseOf?, h.datasetVersions, h.calculationJobs,
        h.executionAttempts]
  | datasetBuildSnapshot id =>
      simp [Row.Same, Store.dependenciesOf, h.datasetBuildSnapshots, h.snapshotDependencies]
  | executionAttempt id => simp [Row.Same, h.executionAttempts]

/-! ## The discipline -/

def discipline (honours : Prop) : Discipline (machine honours) where
  Inv := Invariant honours
  le := Moment.Grows
  same l s s' := l.mode.exclusive = true → l.row.Same s s'
  le_refl _ := .refl
  le_trans h h' := h.trans h'
  same_refl _ _ _ := .refl
  same_trans h h' hl := (h hl).trans (h' hl)
  world_step hinv hw := ⟨hinv.world hw, ⟨.refl, hw.grows⟩⟩
  config_step {g L s} hinv hc := by
    have hg := Store.ConfigStep.grows hc
    refine ⟨⟨hc.consistent hinv.consistent, ?_, hinv.seen, ?_⟩, ⟨hg, .refl⟩,
      fun l hl hmode => hc.same hl hmode⟩
    · exact fun c hc' => (hinv.sent c hc').grows hinv.consistent.references hg
    · intro hh id a ha
      exact hinv.agrees hh id a (hc.executionAttempts ▸ ha)

/-- A commit at the end of a transaction that began at `now`: it changes the store as it may, and
every attempt is in agreement. -/
structure Commit (honours : Prop) (now : Time) (L : List RowLock) (g : Moment) (s' : Store) :
    Prop where
  change : g.db.Change now L s'
  agrees : honours → ∀ id a, s'.executionAttempts.get? id = some a →
    a.status.Agrees (g.world.executor a.identity)

namespace Commit

variable {honours : Prop} {now : Time} {L : List RowLock} {g : Moment} {s' : Store}

/-- Agreement has to be shown for attempts that are new or have moved. -/
theorem of_change (hinv : Invariant honours g) (h : g.db.Change now L s')
    (hmoved : honours → ∀ id a, s'.executionAttempts.get? id = some a →
      g.db.executionAttempts.get? id = some a ∨
        a.status.Agrees (g.world.executor a.identity)) : Commit honours now L g s' :=
  ⟨h, fun hh id a ha => (hmoved hh id a ha).elim (hinv.agrees hh id a) fun h => h⟩

/-- One attempt has moved. -/
theorem of_put (hinv : Invariant honours g) (h : g.db.Change now L s') {a : ExecutionAttempt}
    (hrows : s'.executionAttempts = g.db.executionAttempts.put a)
    (ha : honours → a.status.Agrees (g.world.executor a.identity)) : Commit honours now L g s' := by
  refine of_change hinv h fun hh id b hb => ?_
  rw [hrows] at hb
  rcases Table.of_get?_put hb with hb | rfl
  · exact .inl hb
  · exact .inr (ha hh)

theorem refl (hinv : Invariant honours g) : Commit honours now L g g.db :=
  ⟨.refl hinv.consistent, hinv.agrees⟩

theorem mono (h : Commit honours now L g s') {L' : List RowLock}
    (hL : ∀ r : Row, r.Held L → r.Held L') : Commit honours now L' g s' :=
  ⟨h.change.mono hL, h.agrees⟩

theorem invariant (hinv : Invariant honours g) (h : Commit honours now L g s') :
    Invariant honours { g with db := s' } :=
  ⟨h.change.consistent,
    fun c hc => (hinv.sent c hc).grows hinv.consistent.references h.change.grows,
    hinv.seen, h.agrees⟩

end Commit

end CostEngine
