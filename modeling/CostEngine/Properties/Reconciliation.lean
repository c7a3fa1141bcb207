import CostEngine.System.Scripts

/-! # Reconciliation is safe and convergent

A reconciliation applies what it observed some time ago to a row it read before that. With
an executor that honours ADR-0008 it never meets a contradiction, and a final status it
observed is what its attempt ends with. -/

namespace CostEngine

open Relational (Table)
open Concurrency (play)

variable {st st' : System}

/-! ## What a commit does -/

/-- What a commit of `applyReconciliation` does. -/
structure Store.Reconciled (context : ReconciliationAttemptContext)
    (executorStatus : ReconciliationExecutorStatus) (s s' : Store) : Prop where
  attempts : ∀ id, id ≠ context.executionAttemptId →
    s'.executionAttempts.get? id = s.executionAttempts.get? id
  jobs : ∀ id, s'.calculationJobs.get? id ≠ s.calculationJobs.get? id → id = context.jobId
    ∧ ∃ a, s.executionAttempts.get? context.executionAttemptId = some a
      ∧ a.calculationJobId = id
      ∧ ∀ b ∈ s.attemptsOf id, b.attemptNumber ≤ a.attemptNumber
  versions : s'.datasetVersions = s.datasetVersions
  attempt_succeeded : ∀ id a, s.executionAttempts.get? id = some a → a.status = .succeeded →
    s'.executionAttempts.get? id = some a
  job_succeeded : ∀ id j, s.calculationJobs.get? id = some j → j.status = .succeeded →
    ∃ j', s'.calculationJobs.get? id = some j' ∧ j'.status = .succeeded

theorem Store.Consistent.reconciled {honours : Prop} {env : TxEnv} {g : Moment}
    {context : ReconciliationAttemptContext} {executorStatus : ReconciliationExecutorStatus}
    {o : Ended CalculationJobReconciliationResult} {r : CalculationJobReconciliationResult}
    (hspec : (Transaction.applyReconciliation context executorStatus).Spec honours env o g)
    (hr : o.result = .ok r) :
    g.db.Reconciled context executorStatus (o.writes.foldl Store.apply g.db) := by
  have hreconcile : ReconcileSpec honours context executorStatus _ g o := hspec.ensures
  obtain ⟨hattempts, hjobs, hversions, -⟩ := hreconcile.effect r hr
  have hgrows := (hreconcile.commit r hr).change.grows
  refine ⟨hattempts, fun id hne => ?_, hversions, fun id a ha hs => ?_, fun id j hj hs => ?_⟩
  · obtain ⟨rfl, hnewer⟩ := hjobs id hne
    obtain ⟨a, ha, hjob, hnumber, -⟩ := hspec.pre.1.attempt
    refine ⟨rfl, a, ha, hjob, fun b hb => ?_⟩
    by_contra hlt
    have : g.db.hasNewerExecutionAttempt context.jobId context.attemptNumber = true :=
      Store.hasNewerExecutionAttempt_eq_true.mpr ⟨b, hb, by omega⟩
    rw [hnewer] at this
    cases this
  · obtain ⟨a', ha', hsteps⟩ := hgrows.attempt ha
    rwa [attempt_over hsteps (by rw [hs]; rfl)] at ha'
  · obtain ⟨j', hj', hsteps⟩ := hgrows.job hj
    exact ⟨j', hj', CostEngine.job_succeeded hsteps hs⟩

theorem no_applyReconciliation_error {st₀ : System} (h₀ : Initial st₀)
    (hr : (machine True).Run st₀ st) (i : Nat) (context : ReconciliationAttemptContext)
    (x : ReconciliationExecutorStatus) (e : ServiceError) :
    .ended (.applyReconciliation context x) (.error e) ∉ (st.threads i).events := by
  induction hr with
  | refl =>
      cases h₀
      exact List.not_mem_nil
  | step hr hs ih =>
      intro hmem
      rcases hs.ended_mem hmem with hmem | ⟨a, ha⟩
      · exact ih hmem
      · obtain ⟨last, hspec⟩ := Reachable.ends ⟨_, h₀, hr⟩ ha
        obtain ⟨r, hok⟩ := ReconcileSpec.returns hspec.ensures trivial
        cases hok

/-! ## The property -/

/-- **Reconciliation is safe and convergent**: it never raises, it commits only what
`Store.Reconciled` says, a final status that it applied stays the status of the attempt, it
applies what it observed of the attempt it read and nothing else, and without an observation it
runs no transaction. -/
theorem reconciliation_safe (h : Reachable True st) :
    (∀ i context x r a, st.Ending i (.applyReconciliation context x) r a → ∃ r', r = .ok r')
    ∧ (∀ i context x r ws st', (machine True).Step st st' →
        Commits i (.applyReconciliation context x) r ws st st' →
        st.shared.db.Reconciled context x st'.shared.db ∧
        (x ≠ .running → ∀ st'', (machine True).Run st' st'' → ∃ a,
          st''.shared.db.executionAttempts.get? context.executionAttemptId = some a
            ∧ a.status = x.attemptStatus))
    ∧ ∀ i req log r, st.threads i = .running req log (.ret r) →
        (∃ jobId, req = .reconcileCalculationJob jobId)
          ∨ (∃ id, req = .reconcileExecutionAttempt id)
          ∨ (∃ identity, req = .reconcileExecutionByIdentity identity) →
        ReconcileEnds log r ∧
        ∀ identity answer x, .answered (.getExecutionStatus identity) answer ∈ log →
          reconcilable? answer = some x → ∃ context result,
            identity = ⟨context.airflowDagId, context.airflowDagRunId⟩
              ∧ .ended (.applyReconciliation context x) (.ok result) ∈ log := by
  refine ⟨fun i context x r a he => ?_, fun i context x r ws st' hstep hc => ?_,
    fun i req log r hi hreq => ?_⟩
  · obtain ⟨last, hspec⟩ := h.ends he
    exact ReconcileSpec.returns hspec.ensures trivial
  · obtain ⟨req, log, k, a, hi, hr, rfl, hst⟩ := hc
    obtain ⟨last, hspec⟩ := h.commits hi hr
    have hdb : st'.shared.db = a.writes.foldl Store.apply st.shared.db := by rw [hst]
    refine ⟨hdb ▸ Store.Consistent.reconciled hspec rfl, fun hx st'' hrun => ?_⟩
    obtain ⟨ea, hea, hs⟩ := (ReconcileSpec.effect hspec.ensures r rfl).final hx
    have hgrows := (h.step hstep).grows hrun
    obtain ⟨ea', hea', hsteps⟩ := hgrows.db.attempt (hdb ▸ hea)
    have hover : ea.status.isActive = false := by
      rw [hs]
      cases x with
      | running => exact absurd rfl hx
      | succeeded => rfl
      | failed => rfl
    obtain rfl := attempt_over hsteps hover
    exact ⟨ea', hea', hs⟩
  · have hpost := h.returns hi
    have hends : ReconcileEnds log r := by
      rcases hreq with ⟨_, rfl⟩ | ⟨_, rfl⟩ | ⟨_, rfl⟩ <;> exact hpost
    refine ⟨hends, fun identity answer x hanswer hx => ?_⟩
    obtain ⟨context, r', hid, hended⟩ := hends.observed identity answer x hanswer hx
    cases r' with
    | ok result => exact ⟨context, result, hid, hended⟩
    | error e =>
        obtain ⟨st₀, h₀, hr⟩ := h
        refine absurd ?_ (no_applyReconciliation_error h₀ hr i context x e)
        rw [hi]
        exact hended

/-! ## A sample -/

/-- The first attempt is dispatched, runs, and succeeds; a reconciliation finds out and is about
to commit that. -/
def Script.reconciled (honours : Prop) : Script honours :=
  dispatched honours ++ executes honours 0 .running
    ++ request honours (.reconcileCalculationJob "v2") ++ steps honours 2 2 "r"
    ++ executes honours 0 .succeeded ++ answers honours 2 .accepted .succeeded
    ++ steps honours 2 17 "r"

/-- The thread is about to commit that its attempt has succeeded. -/
def SystemStage.appliesSuccess (i : Nat) (S : SystemStage) : Bool :=
  match S.thread i with
  | .inTxn _ _ (.applyReconciliation _ .succeeded) _ ⟨_, _, _, _, .pure _⟩ => true
  | _ => false

theorem SystemStage.commits_of_appliesSuccess {S : SystemStage} {i : Nat}
    (h : appliesSuccess i S = true) : ∃ context r ws st', (machine True).Step S.state st'
      ∧ Commits i (.applyReconciliation context .succeeded) r ws S.state st' := by
  unfold appliesSuccess at h
  split at h
  · rename_i req log context k env seen locks writes r hi
    exact ⟨context, r, writes, _, .commit S.state i req log _ k _ r hi rfl,
      req, log, k, _, hi, rfl, rfl, rfl⟩
  · cases h

theorem reconciliation_safe_reconciled : ∃ S, play (machine True) (Script.reconciled True)
    SystemStage.sample = some S
      ∧ SystemStage.statuses S = ([.building], [.pending], [.dispatching])
      ∧ ∃ context r ws st', (machine True).Step S.state st'
        ∧ Commits 2 (.applyReconciliation context .succeeded) r ws S.state st'
        ∧ S.shared.db.Reconciled context .succeeded st'.shared.db
        ∧ ∃ a, st'.shared.db.executionAttempts.get? context.executionAttemptId = some a
            ∧ a.status = .succeeded := by
  obtain ⟨S, hS, hp⟩ := exists_of_play (p := fun S =>
    decide (SystemStage.statuses S = ([.building], [.pending], [.dispatching]))
      && SystemStage.appliesSuccess 2 S)
    (show (play (machine True) (Script.reconciled True) SystemStage.sample).any _ = true by
      decide +kernel)
  obtain ⟨hstatuses, happlies⟩ := Bool.and_eq_true_iff.mp hp
  obtain ⟨context, r, ws, st', hs, hc⟩ := SystemStage.commits_of_appliesSuccess happlies
  obtain ⟨hreconciled, hfinal⟩ := (reconciliation_safe (.of_play SystemStage.sample_initial hS)).2.1
    2 context .succeeded r ws st' hs hc
  exact ⟨S, hS, of_decide_eq_true hstatuses, context, r, ws, st', hs, hc, hreconciled,
    hfinal (by decide) st' (.refl _)⟩

end CostEngine
