import Mathlib.Data.List.Perm.Subperm
import Mathlib.Data.Nat.Find
import CostEngine.Frontend.Requests

/-! # `frontend/src/scenarios/engine.ts` and `scenarios.ts`

A step of a scenario is a script: it sends commands and reads, one after the other or several
at once, and keeps what later steps need in the memory of its plan. It has no other access to
the page. -/

namespace CostEngine.Frontend

open EventLoop (Async)

/-- What a step of a scenario runs. -/
abbrev Script (α : Type) : Type := Async Unit ScenarioRequest Answer Failure α

namespace Script

variable {α : Type}

/-- A field of what may be nothing. -/
def required : Option α → Script α
  | some a => .pure a
  | none => .throw .typeError

/-- `Promise.allSettled`. -/
def allSettled (requests : List ScenarioRequest) : Script (List Answer) := .all requests .pure

def ask (request : ScenarioRequest) : Script Reply :=
  .all [request] fun
    | [answer] => .ofExcept answer
    | _ => .throw .typeError

def expectThat (condition : Bool) (message : String) : Script Unit :=
  if condition then .pure () else .throw (.mismatch message)

end Script

open Script

/-! ## `ScenarioApi` -/

/-- The reporting period of a `ScenarioApi`. A year that is not a number is sent as nothing. -/
structure ScenarioApi where
  fiscalYear : Option Nat
  period : Option String
  deriving DecidableEq

namespace ScenarioApi

def post (command : Command) : Script Reply := ask (.post command)

/-- What `createDataset` posts. -/
def createDataset (api : ScenarioApi) (domain : String) : Command :=
  { path := "/demo/dataset-versions"
    body := .dataset domain api.fiscalYear api.period
    detail := some domain }

def create (api : ScenarioApi) (domain : String) : Script CreatedDataset := do
  let reply ← post (api.createDataset domain)
  required reply.data.created?

def run (jobId : String) (simulation : Simulation := {}) : Script RunResult := do
  let reply ← post
    { path := "/demo/calculation-jobs/" ++ jobId ++ "/run"
      body := .simulation simulation
      detail := some (simulation.dispatch.text ++ " / " ++ simulation.completion.text)
      isRun := true }
  required reply.data.run?

def setExecutorState (attemptId state : String) : Script Reply :=
  post { path := "/demo/execution-attempts/" ++ attemptId ++ "/fake-state"
         body := .state state
         detail := some state }

def reconcile (jobId : String) : Script Reply :=
  post { path := "/demo/calculation-jobs/" ++ jobId ++ "/reconcile" }

/-- A command about a version, such as `publish`. -/
def versionCommand (datasetVersionId command : String) : Script Reply :=
  post { path := "/demo/dataset-versions/" ++ datasetVersionId ++ "/" ++ command }

def validateAndPublish (datasetVersionId : String) : Script Unit := do
  let _ ← versionCommand datasetVersionId "submit-validation"
  let _ ← versionCommand datasetVersionId "publish"
  pure ()

def publish (api : ScenarioApi) (domain : String) : Script CreatedDataset := do
  let dataset ← api.create domain
  dataset.calculationJobs.forM fun jobId => do
    let _ ← run jobId ⟨.accept, .succeeded⟩
    let _ ← reconcile jobId
  validateAndPublish dataset.datasetVersionId
  pure dataset

def dataset (id : String) : Script Dataset := do
  let reply ← ask (.dataset id)
  required reply.data.dataset?

def jobs (datasetVersionId : String) : Script (List Job) := do
  let reply ← ask (.list (.jobs datasetVersionId))
  required reply.data.jobs?

def attempts (jobId : String) : Script (List Attempt) := do
  let reply ← ask (.list (.attempts jobId))
  required reply.data.attempts?

end ScenarioApi

/-! ## Plans -/

structure StepResult where
  message : String
  focusSeriesId : Option String := none
  pause : Option PauseRequest := none

/-- A step over the memory `M` of its plan. -/
structure ScenarioStep (M : Type) where
  title : String
  run : ScenarioApi → M → Script (StepResult × M)

structure ScenarioPlan where
  Memory : Type
  memory : Memory
  steps : List (ScenarioStep Memory)
  summary : ScenarioApi → Memory → Script ScenarioSummary

structure ScenarioDefinition where
  id : String
  title : String
  build : Messages → ScenarioPlan

/-! ## `conflictingRequests` -/

structure ConflictingRequests where
  created : Nat := 0
  conflicts : Nat := 0
  dataset : Option CreatedDataset := none
  blocked : Nat := 0

namespace ConflictingRequests

def isConflict : Failure → Bool
  | .api e => e.code = "ACTIVE_DATASET_VERSION_EXISTS"
  | _ => false

def isNotReady : Failure → Bool
  | .api e => e.code = "DEPENDENCY_NOT_READY"
  | _ => false

def code : Failure → String
  | .api e => e.code
  | _ => "REQUEST_FAILED"

def winner? : Answer → Option Data
  | .ok reply => some reply.data
  | .error _ => none

def error? : Answer → Option Failure
  | .ok _ => none
  | .error e => some e

def sendFour (t : Messages) (api : ScenarioApi) (m : ConflictingRequests) :
    Script (StepResult × ConflictingRequests) := do
  let replies ← allSettled (List.replicate 4 (.post (api.createDataset "CAPEX")))
  let winners := replies.filterMap winner?
  let errors := replies.filterMap error?
  let conflicts := (errors.filter isConflict).length
  let other := (errors.filter (!isConflict ·)).map code
  expectThat (winners.length = 1) (t.expectedOne winners.length (", ".intercalate other))
  let dataset ← required (winners.head?.bind (·.created?))
  pure ({ message := t.oneCreated winners.length conflicts, focusSeriesId := dataset.datasetSeriesId },
    { m with created := winners.length, conflicts := conflicts, dataset := dataset })

/-- The backend refuses to start a job before its input is ready. -/
def startEarly (t : Messages) (_ : ScenarioApi) (m : ConflictingRequests) :
    Script (StepResult × ConflictingRequests) := do
  let dataset ← required m.dataset
  let jobId := dataset.calculationJobs.head?.getD "undefined"
  let started : Script (Option Nat) := do
    let _ ← ScenarioApi.run jobId
    pure none
  let blocked ← started.attempt fun error =>
    if isNotReady error then do
      let attempts ← ScenarioApi.attempts jobId
      pure (some attempts.length)
    else .throw error
  match blocked with
  | some n => pure ({ message := t.blocked n }, { m with blocked := n })
  | none => .throw (.mismatch t.startedAnyway)

def publishThenStart (t : Messages) (api : ScenarioApi) (m : ConflictingRequests) :
    Script (StepResult × ConflictingRequests) := do
  let _ ← api.publish "FAB_COST"
  let dataset ← required m.dataset
  dataset.calculationJobs.forM fun jobId => do
    let _ ← ScenarioApi.run jobId
  pure ({ message := t.nowStarted, focusSeriesId := dataset.datasetSeriesId }, m)

end ConflictingRequests

def REPOSITORY : String := "https://github.com/good74152/cost-engine-orchestration-platform"

open ConflictingRequests in
def conflictingRequests (t : Messages) : ScenarioPlan where
  Memory := ConflictingRequests
  memory := {}
  steps := [⟨t.sendFour, sendFour t⟩, ⟨t.startEarly, startEarly t⟩,
    ⟨t.publishThenStart, publishThenStart t⟩]
  summary _ m := pure
    { title := t.winnerTitle
      facts := [t.winnerFact m.created m.conflicts, t.earlyFact m.blocked]
      note := some t.browserNote
      link := some (t.seeTest,
        REPOSITORY ++ "/blob/main/scripts/dataset-version-creation-v2.pg.test.ts") }

/-! ## `nextReportingPeriod` -/

/-- The quarters in the order in which they are tried. -/
def quarter (startYear k : Nat) : Nat × String :=
  (startYear + k / 4, ["Q1", "Q2", "Q3", "Q4"].getD (k % 4) "Q4")

/-- The quarters that have a dataset. -/
def taken (used : List Dataset) : List (Nat × String) := used.map fun d => (d.fiscalYear, d.period)

/-- The first quarter that is not taken. One more than there are datasets suffice. -/
def nextReportingPeriod (used : List Dataset) (startYear : Nat := 2026) : Nat × String :=
  (((List.range (used.length + 1)).map (quarter startYear)).find? (· ∉ taken used)).getD
    (quarter startYear 0)

theorem quarter_injective (startYear : Nat) : Function.Injective (quarter startYear) := by
  intro k l h
  obtain ⟨hyear, hperiod⟩ := Prod.mk.inj h
  have hk : k % 4 < 4 := Nat.mod_lt _ (by omega)
  have hl : l % 4 < 4 := Nat.mod_lt _ (by omega)
  have hmod : k % 4 = l % 4 := by
    generalize k % 4 = a at *
    generalize l % 4 = b at *
    have : ∀ a < 4, ∀ b < 4, ["Q1", "Q2", "Q3", "Q4"].getD a "Q4"
        = ["Q1", "Q2", "Q3", "Q4"].getD b "Q4" → a = b := by decide
    exact this a hk b hl hperiod
  omega

/-- The loop ends, and with the first quarter that is not taken. -/
theorem nextReportingPeriod_first (used : List Dataset) (startYear : Nat) :
    ∃ k, nextReportingPeriod used startYear = quarter startYear k
      ∧ quarter startYear k ∉ taken used ∧ ∀ l < k, quarter startYear l ∈ taken used := by
  have hfree : ∃ k < used.length + 1, quarter startYear k ∉ taken used := by
    by_contra hall
    push Not at hall
    have hnodup : ((List.range (used.length + 1)).map (quarter startYear)).Nodup :=
      List.nodup_range.map (quarter_injective startYear)
    have hsub : (List.range (used.length + 1)).map (quarter startYear) ⊆ taken used := by
      intro q hq
      obtain ⟨k, hk, rfl⟩ := List.mem_map.mp hq
      exact hall k (List.mem_range.mp hk)
    have hlength := (List.subperm_of_subset hnodup hsub).length_le
    simp only [taken, List.length_map, List.length_range] at hlength
    omega
  classical
  obtain ⟨hk, hnot⟩ := Nat.find_spec hfree
  have hleast : ∀ l < Nat.find hfree, quarter startYear l ∈ taken used := by
    intro l hl
    by_contra hnot
    exact Nat.find_min hfree hl ⟨hl.trans hk, hnot⟩
  refine ⟨Nat.find hfree, ?_, hnot, hleast⟩
  have hfind : (List.range (used.length + 1)).find? (fun k => quarter startYear k ∉ taken used)
      = some (Nat.find hfree) := by
    rw [List.find?_range_eq_some]
    refine ⟨by simpa using hnot, List.mem_range.mpr hk, fun l hl => by simpa using hleast l hl⟩
  unfold nextReportingPeriod
  rw [List.find?_map, show ((fun q => decide (q ∉ taken used)) ∘ quarter startYear)
    = fun k => decide (quarter startYear k ∉ taken used) from rfl, hfind]
  rfl

end CostEngine.Frontend
