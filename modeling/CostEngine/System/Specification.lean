import CostEngine.Service.Footprint
import CostEngine.Transaction.Creation
import CostEngine.Transaction.Dispatch
import CostEngine.Transaction.FirstRun
import CostEngine.Transaction.Lifecycle
import CostEngine.Transaction.Recording
import CostEngine.Transaction.Reconciliation
import CostEngine.Transaction.Retry

/-! # What each transaction does

`Transaction.Pre` is what a handler knows when it begins a transaction, `Transaction.Spec`
what the transaction has done when it ends. -/

namespace CostEngine

open Concurrency (Outcome Discipline Ends)

variable {honours : Prop} {g g' : Moment} {env : TxEnv}

namespace Transaction

/-- What the arguments of a transaction say of the rows that were read before it began, and
of the executor. -/
def Pre (honours : Prop) : Transaction → Moment → Prop
  | createDatasetVersion _, _ => True
  | prepareCalculationJobRun _, _ => True
  | prepareFailedCalculationJobRetry state, g => g.db.Routed state
  | beginDispatch d, g => g.db.Durable d
  | recordDispatchOutcome c outcome, g =>
      g.db.Dispatched c ∧ (honours → g.world.Tells c.identity outcome)
  | applyReconciliation context executorStatus, g => g.db.Describes context ∧
      (honours → g.world.Observed ⟨context.airflowDagId, context.airflowDagRunId⟩
        context.attemptStatus executorStatus)
  | submitDatasetValidation _, _ => True
  | decideValidatedDataset id seriesId _, g => g.db.InSeries id seriesId
  | abandonDatasetVersion id seriesId, g => g.db.InSeries id seriesId

/-- The part of the specification that is about the transaction `t` alone. -/
def Ensures (honours : Prop) : (t : Transaction) → TxEnv → Ended t.Result → Moment → Prop
  | createDatasetVersion input, env, o, g => CreateSpec honours input env g o
  | prepareCalculationJobRun jobId, env, o, g => ∃ fl, PrepareSpec honours jobId env fl g o
  | prepareFailedCalculationJobRetry state, env, o, g => RetrySpec honours state env g o
  | beginDispatch d, env, o, g => BeginDispatchSpec honours d env g o
  | recordDispatchOutcome c outcome, env, o, g => RecordOutcomeSpec honours c outcome env g o
  | applyReconciliation context executorStatus, env, o, g =>
      ReconcileSpec honours context executorStatus env g o
  | submitDatasetValidation id, env, o, g => LifecycleSpec honours id .validating env g o
  | decideValidatedDataset id _ decision, env, o, g =>
      LifecycleSpec honours id decision.target env g o
  | abandonDatasetVersion id _, env, o, g => LifecycleSpec honours id .abandoned env g o

structure Spec (honours : Prop) (t : Transaction) (env : TxEnv) (o : Ended t.Result)
    (g : Moment) : Prop where
  pre : t.Pre honours g
  ensures : t.Ensures honours env o g
  footprint : ∀ u ∈ o.writes, t.mayWrite u = true

theorem Ensures.commit {t : Transaction} {o : Ended t.Result} (h : t.Ensures honours env o g)
    (r : t.Result) (hr : o.result = .ok r) :
    Commit honours env.now o.locks g (o.writes.foldl Store.apply g.db) := by
  cases t with
  | createDatasetVersion input => exact CreateSpec.commit h r hr
  | prepareCalculationJobRun jobId =>
      obtain ⟨fl, h⟩ := h
      exact h.commit r hr
  | prepareFailedCalculationJobRetry state => exact RetrySpec.commit h r hr
  | beginDispatch d => exact BeginDispatchSpec.commit h r hr
  | recordDispatchOutcome c outcome => exact RecordOutcomeSpec.commit h r hr
  | applyReconciliation context executorStatus => exact ReconcileSpec.commit h r hr
  | submitDatasetValidation id => exact LifecycleSpec.commit h r hr
  | decideValidatedDataset id seriesId decision => exact LifecycleSpec.commit h r hr
  | abandonDatasetVersion id seriesId => exact LifecycleSpec.commit h r hr

/-- What was known when the transaction began is still so when it ends. -/
theorem Pre.later {t : Transaction} (h : t.Pre honours g) (hinv : Invariant honours g)
    (hle : Moment.Grows g g') : t.Pre honours g' := by
  cases t with
  | createDatasetVersion input => trivial
  | prepareCalculationJobRun jobId => trivial
  | prepareFailedCalculationJobRetry state => exact Store.Routed.grows h hle.db
  | beginDispatch d => exact Store.Durable.grows h hle.db
  | recordDispatchOutcome c outcome =>
      exact ⟨h.1.grows hinv.consistent.references hle.db, fun hh => (h.2 hh).grows hle.world⟩
  | applyReconciliation context executorStatus =>
      exact ⟨h.1.grows hle.db, fun hh => (h.2 hh).grows hle.world⟩
  | submitDatasetValidation id => trivial
  | decideValidatedDataset id seriesId decision => exact Store.InSeries.grows h hle.db
  | abandonDatasetVersion id seriesId => exact Store.InSeries.grows h hle.db

/-- **Every transaction meets its specification**, whatever the others do meanwhile. -/
theorem wp_body {t : Transaction} {fl : Moment} (hpre : t.Pre honours fl)
    (hinv : Invariant honours fl) (hle : (discipline honours).Later [] fl g) :
    (discipline honours).Wp g fl [] [] (t.body env) fun o => t.Spec honours env o g := by
  intro o ho
  refine ⟨hpre.later hinv hle.le, ?_, Discipline.exec_writes ho t.body_writes (by simp)⟩
  revert o
  show (discipline honours).Wp g fl [] [] (t.body env) _
  cases t with
  | createDatasetVersion input => exact wp_createDatasetVersion hle.inv
  | prepareCalculationJobRun jobId =>
      exact Discipline.wp_mono wp_prepareCalculationJobRun fun o h => ⟨fl, h⟩
  | prepareFailedCalculationJobRetry state =>
      exact wp_prepareFailedCalculationJobRetry hpre hinv
  | beginDispatch d => exact wp_beginDispatch hpre
  | recordDispatchOutcome c outcome => exact wp_recordDispatchOutcome hpre.1 hinv hpre.2
  | applyReconciliation context executorStatus => exact wp_applyReconciliation hpre.1 hpre.2
  | submitDatasetValidation id => exact wp_submitDatasetValidation
  | decideValidatedDataset id seriesId decision => exact wp_decideValidatedDataset hinv hpre
  | abandonDatasetVersion id seriesId => exact wp_abandonDatasetVersion hinv hpre

end Transaction

/-! ## Messages and logs -/

/-- Only the commands of dispatched attempts are sent. -/
def Sent (c : DispatchCalculationCommand) (g : Moment) : Prop := g.db.Dispatched c

abbrev ServiceEvent := Concurrency.Event ServiceError Transaction Transaction.Result
  DispatchCalculationCommand ExecutorQuestion ExecutorQuestion.Answer

/-- A transaction that commits keeps the invariant, and changes only rows it has locked. -/
theorem Commit.ends {t : Transaction} {o : Ended t.Result} (hinv : Invariant honours g)
    (h : t.Spec honours env o g) :
    Ends (discipline honours) (Transaction.Spec honours) t env o g where
  spec := h
  inv r hr := (h.ensures.commit r hr).invariant hinv
  le r hr := ⟨(h.ensures.commit r hr).change.grows, .refl⟩
  same r hr l hfree hmode :=
    (h.ensures.commit r hr).change.same l.row (Row.not_held_of_free hfree hmode)

end CostEngine
