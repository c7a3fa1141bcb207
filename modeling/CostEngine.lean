import CostEngine.Concurrency.Soundness
import CostEngine.Concurrency.Runs
import CostEngine.Concurrency.Script
import CostEngine.Store.Locks
import CostEngine.Executor.Boundary
import CostEngine.CalculationJob.PreparationRepository
import CostEngine.CalculationJob.RunService
import CostEngine.CalculationJob.ReconciliationRepository
import CostEngine.CalculationJob.ReconciliationService
import CostEngine.DatasetVersion.LifecycleRepository
import CostEngine.DatasetVersion.LifecycleService
import CostEngine.DatasetVersion.Repository
import CostEngine.DatasetVersion.Service
import CostEngine.Service.Handlers
import CostEngine.System.World
import CostEngine.Invariant.Growth
import CostEngine.Invariant.Consistent
import CostEngine.Invariant.Changes
import CostEngine.Invariant.Creation
import CostEngine.Invariant.Freezing
import CostEngine.System.Discipline
import CostEngine.Transaction.Locking
import CostEngine.Transaction.Dispatch
import CostEngine.Transaction.Recording
import CostEngine.Transaction.Reconciliation
import CostEngine.Transaction.Attempts
import CostEngine.Transaction.Retry
import CostEngine.Transaction.Resolving
import CostEngine.Transaction.FirstRun
import CostEngine.Transaction.Lifecycle
import CostEngine.Transaction.Creation
import CostEngine.Service.Footprint
import CostEngine.System.Specification
import CostEngine.System.Handlers
import CostEngine.System.Reachable
import CostEngine.System.Writers
import CostEngine.System.Scripts
import CostEngine.Properties.Consistency
import CostEngine.Properties.Executor
import CostEngine.Properties.Dispatch
import CostEngine.Properties.Attempts
import CostEngine.Properties.FrozenInputs
import CostEngine.Properties.Freezing
import CostEngine.Properties.Allocation
import CostEngine.Properties.Reconciliation
import CostEngine.Properties.Lifecycle
import CostEngine.Executor.FakeExecutor
import CostEngine.Executor.Fate
import CostEngine.Demo.Coordinator
import CostEngine.Properties.FakeExecutor
import CostEngine.Demo.Gate
import CostEngine.Demo.GateSteps
import CostEngine.Properties.SessionGate
import CostEngine.Demo.Cleanup
import CostEngine.Demo.Runtime
import CostEngine.Demo.ResetService
import CostEngine.Demo.RuntimeInvariant
import CostEngine.Demo.OperationSteps
import CostEngine.Demo.ResetSteps
import CostEngine.Demo.ResetVerdicts
import CostEngine.Demo.RuntimeSteps
import CostEngine.Demo.RuntimeChanges
import CostEngine.Demo.Readers
import CostEngine.Properties.ResetOutcome
import CostEngine.Properties.ExecutorRegistry
import CostEngine.Properties.PendingResets
import CostEngine.Graph.Search
import CostEngine.Properties.WorkflowTemplates
import CostEngine.Deployment.PublicDemoHttp
import CostEngine.Properties.RateLimit
import CostEngine.Migration.Naming01
import CostEngine.Properties.Naming01
import CostEngine.Codec.Base64Url
import CostEngine.Demo.SessionCookie
import CostEngine.Properties.SessionCookie
import CostEngine.RawIngestion.Numbering
import CostEngine.RawIngestion.Transaction
import CostEngine.Properties.RawIngestion
import CostEngine.Demo.RequestScopedFakeExecutor
import CostEngine.Demo.ScopedRequests
import CostEngine.Executor.Decisions
import CostEngine.Properties.SimulationReports
import CostEngine.Codec.Json
import CostEngine.Demo.ReadPagination
import CostEngine.Relational.Keyset
import CostEngine.Demo.ReadRepository
import CostEngine.Frontend.ApiClient
import CostEngine.Demo.ReadListing
import CostEngine.Properties.Pagination
import CostEngine.SessionAdmission.Service
import CostEngine.SessionAdmission.Uniqueness
import CostEngine.SessionAdmission.Transaction
import CostEngine.Properties.SessionAdmission
import CostEngine.Cleanup.Repository
import CostEngine.Cleanup.Graph
import CostEngine.Properties.OwnedCleanup
import CostEngine.Milestone.Results
import CostEngine.Properties.MilestoneGate
import CostEngine.EventLoop.Async
import CostEngine.EventLoop.Loop
import CostEngine.Frontend.DemoState
import CostEngine.Frontend.Requests
import CostEngine.Frontend.Scenarios
import CostEngine.Frontend.DemoController
import CostEngine.Frontend.Conversations
import CostEngine.Frontend.ConversationSpecs
import CostEngine.Frontend.PageReads
import CostEngine.Frontend.ControllerSpecs
import CostEngine.Frontend.Clearing
import CostEngine.Properties.PageConversations
import CostEngine.Concurrency.Executions
import CostEngine.Graph.Sources
import CostEngine.Properties.Lineage
import CostEngine.Relational.Checked
import CostEngine.Migration.SchemaV2
import CostEngine.Migration.Preflights
import CostEngine.Migration.Undoing
import CostEngine.Migration.Restoring
import CostEngine.Migration.Migrated
import CostEngine.Migration.RolledBack
import CostEngine.Properties.SchemaV2
import CostEngine.Executor.Closures
import CostEngine.Demo.SimulatedRuns
import CostEngine.Demo.SimulatedSteps
import CostEngine.Properties.DeferredRejections
import CostEngine.Demo.SimulatedSystem
import CostEngine.Properties.RecordedOutcomes
import CostEngine.Versioned.Catalogue
import CostEngine.Concurrency.Counting
import CostEngine.System.Moves
import CostEngine.System.History
import CostEngine.Properties.Catalogue
import CostEngine.Versioned.Timeline
import CostEngine.Invariant.Timestamps
import CostEngine.System.Clock
import CostEngine.Properties.Timestamps
import CostEngine.Concurrency.LockOrder
import CostEngine.Graph.Levels
import CostEngine.System.LockOrder
import CostEngine.Transaction.LockOrder
import CostEngine.Transaction.FirstRunLocks
import CostEngine.Transaction.AttemptLocks
import CostEngine.Transaction.LifecycleLocks
import CostEngine.Transaction.CreationLocks
import CostEngine.Properties.Deadlock
