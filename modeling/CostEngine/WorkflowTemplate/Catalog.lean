import Mathlib.Algebra.Group.Nat.Defs
import Mathlib.Data.Rat.Defs
import CostEngine.Graph.Search

/-! # `workflow-template.catalog.ts`

Templates come from the developers and are checked at run time, so operations, domains and
versions are whatever values these fields can hold. -/

namespace CostEngine

/-- The values of type `number`. -/
inductive JsNumber where
  | nan
  | infinity (negative : Bool)
  | finite (value : ℚ)
  deriving DecidableEq

/-- `Number.isSafeInteger`. -/
def JsNumber.isSafeInteger : JsNumber → Bool
  | .finite value => value.den = 1 && value.num.natAbs ≤ 9007199254740991
  | _ => false

def JsNumber.lt : JsNumber → JsNumber → Bool
  | .nan, _ | _, .nan => false
  | .infinity negative, .infinity negative' => negative && !negative'
  | .infinity negative, .finite _ => negative
  | .finite _, .infinity negative => !negative
  | .finite value, .finite value' => value < value'

/-- `WORKFLOW_OPERATIONS`. -/
def workflowOperations : List String :=
  ["CREATE_DATASET", "RUN_JOB", "SET_FAKE_STATE", "RECONCILE_JOB", "SUBMIT_VALIDATION",
    "PUBLISH_DATASET"]

/-- `DATASET_DOMAINS`. -/
def datasetDomains : List String :=
  ["FAB_COST", "CAPEX", "DPR", "INSURANCE", "ONE_STD_COST", "E2E_COST"]

structure WorkflowStep where
  id : String
  operation : String
  domain : Option String
  prerequisites : List String
  deriving DecidableEq

structure WorkflowTemplate where
  id : String
  version : JsNumber
  steps : List WorkflowStep
  deriving DecidableEq

/-- The loop over the steps. `steps` is the map of those before. -/
def readSteps : List WorkflowStep → List WorkflowStep → Except String (List WorkflowStep)
  | steps, [] => .ok steps
  | steps, step :: rest =>
      if step.id = "" ∨ step.id ∈ steps.map (·.id) then
        .error "Invalid or duplicate workflow step ID"
      else if step.operation ∉ workflowOperations then .error "Unsupported workflow operation"
      else if (∃ domain ∈ step.domain, domain ∉ datasetDomains)
          ∨ (step.operation = "CREATE_DATASET" ∧ step.domain = none) then
        .error "Invalid workflow domain"
      else readSteps (steps ++ [step]) rest

/-- `steps.get(id)`, and its prerequisites. -/
def prerequisitesOf (steps : List WorkflowStep) (id : String) : Option (List String) :=
  (steps.find? (·.id = id)).map (·.prerequisites)

/-- What `visit` throws. -/
def workflowSearchError : Graph.SearchError → String
  | .unknown => "Unknown workflow prerequisite"
  | .cyclic => "Cyclic workflow prerequisites"

/-- One turn of the loop over the templates; `visit` is the depth-first search from the
prerequisites of a step, with fuel for its recursion. -/
def validateWorkflowTemplate (fuel : Nat) (ids : List String) (template : WorkflowTemplate) :
    Option (Except String (List String)) :=
  if template.id = "" ∨ template.id ∈ ids then
    some (.error "Invalid or duplicate workflow template ID")
  else if !template.version.isSafeInteger || template.version.lt (.finite 1) then
    some (.error "Invalid workflow template version")
  else
    match readSteps [] template.steps with
    | .error message => some (.error message)
    | .ok steps =>
        match Graph.visitAll (Graph.visit (prerequisitesOf steps) fuel) (steps.map (·.id)) ⟨[], []⟩ with
        | none => none
        | some (.error e) => some (.error (workflowSearchError e))
        | some (.ok _) => some (.ok (template.id :: ids))

/-- The loop over the templates, with the ids of those before. -/
def validateFrom (fuel : Nat) : List String → List WorkflowTemplate → Option (Except String Unit)
  | _, [] => some (.ok ())
  | ids, template :: rest =>
      match validateWorkflowTemplate fuel ids template with
      | none => none
      | some (.error message) => some (.error message)
      | some (.ok ids) => validateFrom fuel ids rest

def validateWorkflowTemplates (fuel : Nat) (templates : List WorkflowTemplate) :
    Option (Except String Unit) :=
  validateFrom fuel [] templates

end CostEngine
