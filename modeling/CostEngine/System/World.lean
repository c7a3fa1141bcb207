import CostEngine.Service.Handlers

/-! # The system: services, database, executor

The executor keeps one state for each execution identity. An identity it has not seen is
either rejected for ever or gets one run, which is running until it succeeds or fails
(`docs/adr/ADR-0008`); whether its answers tell the truth is the parameter `honours` of
the machine. -/

namespace CostEngine

open Concurrency (Machine State)

/-! ## The executor -/

inductive ExternalExecution where
  | unseen | rejected | running | succeeded | failed
  deriving DecidableEq

namespace ExternalExecution

/-- There is a run for the identity. -/
def runExists : ExternalExecution → Bool
  | .running | .succeeded | .failed => true
  | _ => false

/-- One move of the executor on an identity it was sent. -/
inductive Step : ExternalExecution → ExternalExecution → Prop
  | reject : Step .unseen .rejected
  | create : Step .unseen .running
  | succeed : Step .running .succeeded
  | fail : Step .running .failed

end ExternalExecution

/-- Everything outside the database: the clock, the executor, and the commands sent to
it so far. A command that was sent may reach the executor at any later time. -/
structure World where
  clock : Time
  executor : ExecutionIdentity → ExternalExecution
  sent : List DispatchCalculationCommand

namespace World

inductive Step : World → World → Prop
  | tick (w : World) (d : Nat) : Step w { w with clock := w.clock + d }
  | execute (w : World) (command : DispatchCalculationCommand) (x : ExternalExecution) :
      command ∈ w.sent → (w.executor command.identity).Step x →
      Step w { w with executor := Function.update w.executor command.identity x }

/-- The answers of an executor that honours ADR-0008. -/
def Allows (w : World) : (q : ExecutorQuestion) → q.Answer → Prop
  | .dispatch command, .ok .accepted => (w.executor command.identity).runExists = true
  | .dispatch command, .ok .alreadyExists => (w.executor command.identity).runExists = true
  | .dispatch command, .ok (.rejected _) => w.executor command.identity = .rejected
  | .getExecutionStatus identity, .ok .running => w.executor identity = .running
  | .getExecutionStatus identity, .ok .succeeded => w.executor identity = .succeeded
  | .getExecutionStatus identity, .ok (.failed _) => w.executor identity = .failed
  | _, _ => True

end World

/-! ## Configuration -/

/-- A transaction on the configuration tables, holding the row locks `locks`. Types keep
their identity, published definitions are immutable, and whoever publishes a definition
or changes a type holds the lock of the type. -/
structure Store.ConfigStep (s : Store) (locks : List RowLock) (s' : Store) : Prop where
  datasetSeries : s'.datasetSeries = s.datasetSeries
  datasetVersions : s'.datasetVersions = s.datasetVersions
  calculationJobs : s'.calculationJobs = s.calculationJobs
  datasetBuildSnapshots : s'.datasetBuildSnapshots = s.datasetBuildSnapshots
  snapshotDependencies : s'.snapshotDependencies = s.snapshotDependencies
  executionAttempts : s'.executionAttempts = s.executionAttempts
  type_kept : ∀ id ct, s.calculationTypes.get? id = some ct →
    ∃ ct', s'.calculationTypes.get? id = some ct' ∧ ct'.domain = ct.domain
      ∧ ct'.code = ct.code
  definition_kept : ∀ id d, s.dependencyDefinitions.get? id = some d →
    d.status = .published → s'.dependencyDefinitions.get? id = some d
      ∧ s'.definitionRowsOf id = s.definitionRowsOf id
  locked : ∀ id, (∃ l ∈ locks, l.row = .calculationType id ∧ l.mode.exclusive = true) ∨
    s'.calculationTypes.get? id = s.calculationTypes.get? id
      ∧ s'.publishedDefinitionsOf id = s.publishedDefinitionsOf id

/-! ## The machine -/

def machine (honours : Prop) : Machine Store RowLock Write ServiceError TxEnv Transaction
    Transaction.Result DispatchCalculationCommand ExecutorQuestion ExecutorQuestion.Answer
    World Request Response where
  apply := Store.apply
  conflict := RowLock.conflict
  conflict_symm := RowLock.conflict_symm
  body := Transaction.body
  serve := Request.serve
  begins w env := env.now = w.clock
  sends command w := { w with sent := w.sent ++ [command] }
  answers q w answer := honours → w.Allows q answer
  worldStep := World.Step
  configStep := Store.ConfigStep

abbrev System := State Store RowLock Write ServiceError TxEnv Transaction
  Transaction.Result DispatchCalculationCommand ExecutorQuestion ExecutorQuestion.Answer
  World Request Response

abbrev Moment := Concurrency.Global Store World

/-- No dataset yet, any configuration, and an executor that has seen nothing. -/
inductive Initial : System → Prop
  | intro (types definitions dependencies) (clock : Time) :
      Initial (.quiet ⟨.empty types definitions dependencies, ⟨clock, fun _ => .unseen, []⟩⟩)

/-- A state that some run from an initial state passes. -/
def Reachable (honours : Prop) (st : System) : Prop :=
  ∃ st₀, Initial st₀ ∧ (machine honours).Run st₀ st

end CostEngine
