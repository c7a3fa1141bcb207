import Mathlib.Data.List.Basic
import CostEngine.Frontend.ApiClient

/-! # The page's state: `frontend/src/app/controller.ts` and the types it shows

The records of `api/types.ts`, what the page holds of them (`DemoState`), and the
`DemoController` around it, with the two counters its conversations check after every wait. -/

namespace CostEngine.Frontend

/-! ## `api/types.ts` -/

structure Session where
  sessionId : String
  companyCode : String
  expiresAt : String
  status : String
  deriving DecidableEq

structure Dataset where
  datasetVersionId : String
  datasetSeriesId : String
  domain : String
  fiscalYear : Nat
  period : String
  version : Nat
  datasetStatus : String
  createdAt : String
  deriving DecidableEq

structure CreatedDataset where
  datasetVersionId : String
  datasetSeriesId : String
  version : Nat
  /-- The `jobId`s of `calculationJobs`. -/
  calculationJobs : List String
  deriving DecidableEq

structure Job where
  jobId : String
  datasetVersionId : String
  calculationTypeCode : String
  jobStatus : String
  deriving DecidableEq

structure Attempt where
  executionAttemptId : String
  attemptNumber : Nat
  attemptStatus : String
  deriving DecidableEq

structure RunResult where
  jobId : String
  jobStatus : String
  executionAttemptId : String
  attemptNumber : Nat
  attemptStatus : String
  airflowDagRunId : String
  deriving DecidableEq

structure TemplateStep where
  id : String
  domain : String
  operation : String
  prerequisites : List String
  deriving DecidableEq

structure WorkflowTemplate where
  steps : List TemplateStep
  deriving DecidableEq

/-! ## Records of the page -/

/-- `Record<string, V>`. -/
abbrev StringRecord (V : Type) : Type := List (String × V)

namespace StringRecord

variable {V : Type}

/-- `record[key] = value`. -/
def set (record : StringRecord V) (key : String) (value : V) : StringRecord V :=
  match record with
  | [] => [(key, value)]
  | (k, v) :: rest => if k = key then (key, value) :: rest else (k, v) :: set rest key value

/-- `record[key]`. -/
def get? (record : StringRecord V) (key : String) : Option V := record.lookup key

variable {record : StringRecord V} {key : String} {value : V} {x : String × V}

theorem mem_set (h : x ∈ record.set key value) : x = (key, value) ∨ x ∈ record := by
  induction record with
  | nil => exact .inl (List.mem_singleton.mp h)
  | cons entry rest ih =>
      unfold set at h
      split at h
      · rcases List.mem_cons.mp h with rfl | h
        · exact .inl rfl
        · exact .inr (.tail _ h)
      · rcases List.mem_cons.mp h with rfl | h
        · exact .inr (.head _)
        · exact (ih h).imp_right (.tail _)

theorem set_mem (record : StringRecord V) (key : String) (value : V) :
    (key, value) ∈ record.set key value := by
  induction record with
  | nil => exact .head _
  | cons entry rest ih =>
      unfold set
      split
      · exact .head _
      · exact .tail _ ih

/-- An entry stays, if only with a new value. -/
theorem exists_mem_set (h : x ∈ record) : ∃ v, (x.1, v) ∈ record.set key value := by
  induction record with
  | nil => cases h
  | cons entry rest ih =>
      unfold set
      split
      · rename_i hk
        rcases List.mem_cons.mp h with rfl | h
        · exact ⟨value, hk ▸ .head _⟩
        · exact ⟨x.2, .tail _ h⟩
      · rcases List.mem_cons.mp h with rfl | h
        · exact ⟨_, .head _⟩
        · obtain ⟨v, hv⟩ := ih h
          exact ⟨v, .tail _ hv⟩

end StringRecord

/-- `WorkflowLinks`. -/
abbrev WorkflowLinks : Type := StringRecord (Option String)

def DEFAULT_LINKS : WorkflowLinks :=
  [("FAB_COST", none), ("CAPEX", some "FAB_COST"), ("DPR", some "CAPEX"),
    ("INSURANCE", some "FAB_COST"), ("ONE_STD_COST", some "FAB_COST"),
    ("E2E_COST", some "ONE_STD_COST")]

/-- `linksFromTemplate` of `ui/tree.ts`. A step that is given twice counts as it is given
last. -/
def linksFromTemplate (template : WorkflowTemplate) : WorkflowLinks :=
  let domainOf : StringRecord String :=
    template.steps.foldl (fun domains s => domains.set s.id s.domain) []
  template.steps.foldl
    (fun links step =>
      if step.operation = "CREATE_DATASET" then
        links.set step.domain (domainOf.get? (step.prerequisites.head?.getD ""))
      else links) []

inductive Lang where
  | en
  | zhTW
  deriving DecidableEq

/-- One command the page sent. -/
structure ApiCall where
  path : String
  status : Nat
  code : Option String := none
  detail : Option String := none
  deriving DecidableEq

structure PauseRequest where
  title : String
  body : String
  action : String
  deriving DecidableEq

structure ScenarioSummary where
  title : String
  facts : List String
  note : Option String := none
  /-- The label and the address of the link. -/
  link : Option (String × String) := none
  deriving DecidableEq

structure DialogContent where
  title : String
  paragraphs : List String
  bullets : List String
  rows : List (String × String)
  note : Option String
  deriving DecidableEq

inductive DialogState where
  | summary (summary : ScenarioSummary)
  | pause (pause : PauseRequest)
  | error (title message : String) (code : Option String) (status : Option Nat)
  | run (jobId title : String) (recovering : Bool)
  | info (content : DialogContent)
  | clear
  deriving DecidableEq

inductive Mode where
  | auto
  | step
  deriving DecidableEq

inductive PlaybackStatus where
  | running
  | waiting
  | paused
  | done
  | failed
  deriving DecidableEq

structure PlaybackState where
  scenarioId : String
  title : String
  mode : Mode
  status : PlaybackStatus
  stepNumber : Nat
  totalSteps : Nat
  stepTitle : String
  nextStepTitle : Option String
  message : String
  deriving DecidableEq

structure ManualState where
  domain : String
  periodKey : String
  versionId : Option String
  jobId : Option String
  busy : Bool
  message : String
  deriving DecidableEq

structure DemoState where
  session : Option Session := none
  datasets : List Dataset := []
  jobs : StringRecord (List Job) := []
  attempts : StringRecord (List Attempt) := []
  selectedSeriesId : Option String := none
  links : WorkflowLinks := DEFAULT_LINKS
  playback : Option PlaybackState := none
  calls : List ApiCall := []
  dialog : Option DialogState := none
  runIds : StringRecord String := []
  clearing : Bool := false
  lang : Lang
  manual : Option ManualState := none
  deriving DecidableEq

/-- `empty(lang)`. -/
def empty (lang : Lang) : DemoState := { lang := lang }

/-- What belongs to a session, and the dialog. -/
structure SessionData where
  session : Option Session
  datasets : List Dataset
  jobs : StringRecord (List Job)
  attempts : StringRecord (List Attempt)
  runIds : StringRecord String
  calls : List ApiCall
  playback : Option PlaybackState
  manual : Option ManualState
  dialog : Option DialogState
  deriving DecidableEq

def DemoState.data (s : DemoState) : SessionData :=
  ⟨s.session, s.datasets, s.jobs, s.attempts, s.runIds, s.calls, s.playback, s.manual, s.dialog⟩

/-! ## The controller -/

/-- A page read that was shown: the number of its `refresh`, and what it read. -/
structure PageRead where
  number : Nat
  datasets : List Dataset
  jobs : StringRecord (List Job)
  attempts : StringRecord (List Attempt)
  deriving DecidableEq

structure DemoController where
  state : DemoState
  epoch : Nat := 0
  generation : Nat := 0
  /-- The gate that `release` opens. -/
  release : Option Nat := none
  /-- The number of gates so far, and those that were opened. -/
  gates : Nat := 0
  opened : List Nat := []
  /-- The reads that were shown, the newest first. The controller itself keeps no such list. -/
  reads : List PageRead := []

namespace DemoController

/-- `patch(change)`. -/
def patch (c : DemoController) (change : DemoState → DemoState) : DemoController :=
  { c with state := change c.state }

def patchPlayback (c : DemoController) (change : PlaybackState → PlaybackState) :
    DemoController :=
  c.patch fun s => { s with playback := s.playback.map change }

def patchManual (c : DemoController) (change : ManualState → ManualState) : DemoController :=
  c.patch fun s => { s with manual := s.manual.map change }

/-- `release?.()`, after `this.release = null`. -/
def openGate (c : DemoController) : DemoController :=
  { c with release := none, opened := c.release.toList ++ c.opened }

/-- `abandon()`. -/
def abandon (c : DemoController) : DemoController :=
  { c with epoch := c.epoch + 1, generation := c.generation + 1 }.openGate

/-- `isActive()`. -/
def isActive (c : DemoController) : Bool :=
  c.state.playback.any fun playback => playback.status ∈ [.running, .waiting, .paused]

end DemoController

end CostEngine.Frontend
