import CostEngine.Relational.UniqueColumn
import CostEngine.Store.Schema

/-! # `rename-cowos-s-to-e2e-cost.ts`

The migration Naming-01, on the tables it reads, writes or must keep in agreement. The
rows of a table are listed in the order in which an `UPDATE` passes them, which may be
any. -/

namespace CostEngine

open Relational (UniqueColumn)

/-! ## The tables -/

/-- `calculation_types` with all columns. -/
structure CalculationTypeRow extends CalculationType where
  lastAllocatedDependencyDefinitionVersion : Nat
  createdAt : Time
  deriving DecidableEq

/-- `dataset_series` with all columns. -/
structure DatasetSeriesRow extends DatasetSeries where
  legacyBusinessKey : Option String
  createdAt : Time
  deriving DecidableEq

structure OrchestrationTables where
  calculationTypes : List CalculationTypeRow
  datasetSeries : List DatasetSeriesRow
  definitionDependencies : List DefinitionDependency
  datasetVersions : List DatasetVersion
  calculationJobs : List CalculationJob
  deriving DecidableEq

/-- The columns but the domain that `uq_dataset_series_identity` is about. -/
def SeriesIdentity.sameSlot (a b : SeriesIdentity) : Bool :=
  (a.companyCode, a.fiscalYear, a.period) = (b.companyCode, b.fiscalYear, b.period)

/-- `a = b` in SQL, which is not true of NULL. -/
def sqlEq (a b : Option String) : Bool := a.isSome && a = b

namespace OrchestrationTables

structure UniqueConstraints (db : OrchestrationTables) : Prop where
  /-- `uq_dataset_series_identity`. -/
  identity : db.datasetSeries.Pairwise fun a b => a.identity ≠ b.identity
  /-- `uq_dataset_series_domain_legacy_business_key`. -/
  legacyBusinessKey : db.datasetSeries.Pairwise fun a b =>
    ¬ (a.identity.domain = b.identity.domain ∧ sqlEq a.legacyBusinessKey b.legacyBusinessKey)
  /-- `uq_calculation_types_domain_code`. -/
  domainCode : db.calculationTypes.Pairwise fun a b => (a.domain, a.code) ≠ (b.domain, b.code)
  /-- The primary key of `execution_dependency_definition_dependencies`. -/
  requiredDomain : db.definitionDependencies.Pairwise fun a b =>
    (a.definitionVersionId, a.requiredDomain) ≠ (b.definitionVersionId, b.requiredDomain)

end OrchestrationTables

/-! ## The columns -/

def typeDomain : UniqueColumn CalculationTypeRow String where
  get := (·.domain)
  set domain row := { row with domain }
  rival a b := a.code = b.code
  get_set _ _ := rfl
  rival_set _ _ _ := rfl
  rival_comm _ _ := decide_eq_decide.mpr eq_comm

theorem sameSlot_comm (a b : SeriesIdentity) : a.sameSlot b = b.sameSlot a :=
  decide_eq_decide.mpr eq_comm

theorem sqlEq_comm (a b : Option String) : sqlEq a b = sqlEq b a := by
  unfold sqlEq
  by_cases h : a = b
  · rw [h]
  · rw [decide_eq_false h, decide_eq_false (Ne.symm h), Bool.and_false, Bool.and_false]

def seriesDomain : UniqueColumn DatasetSeriesRow String where
  get := (·.identity.domain)
  set domain row := { row with identity := { row.identity with domain } }
  rival a b := a.identity.sameSlot b.identity || sqlEq a.legacyBusinessKey b.legacyBusinessKey
  get_set _ _ := rfl
  rival_set _ _ _ := rfl
  rival_comm a b := by rw [sameSlot_comm, sqlEq_comm]

def requiredDomain : UniqueColumn DefinitionDependency String where
  get := (·.requiredDomain)
  set requiredDomain row := { row with requiredDomain }
  rival a b := a.definitionVersionId = b.definitionVersionId
  get_set _ _ := rfl
  rival_set _ _ _ := rfl
  rival_comm _ _ := decide_eq_decide.mpr eq_comm

/-! ## `up` -/

inductive MigrationError where
  | raised (message : String)
  /-- An `UPDATE` meets a unique constraint. -/
  | uniqueViolation
  deriving DecidableEq

namespace OrchestrationTables

variable (db : OrchestrationTables)

def conflictsInIdentity : Bool :=
  db.datasetSeries.any fun old => db.datasetSeries.any fun target =>
    target.identity.domain = "E2E_COST" && target.identity.sameSlot old.identity
      && old.identity.domain = "COWOS_S"

def conflictsInLegacyKey : Bool :=
  db.datasetSeries.any fun old => db.datasetSeries.any fun target =>
    target.identity.domain = "E2E_COST" && sqlEq target.legacyBusinessKey old.legacyBusinessKey
      && old.identity.domain = "COWOS_S"

def conflictsInCode : Bool :=
  db.calculationTypes.any fun old => db.calculationTypes.any fun target =>
    target.domain = "E2E_COST" && target.code = old.code && old.domain = "COWOS_S"

def conflictsInRequiredDomain : Bool :=
  db.definitionDependencies.any fun old => db.definitionDependencies.any fun target =>
    target.definitionVersionId = old.definitionVersionId && target.requiredDomain = "E2E_COST"
      && old.requiredDomain = "COWOS_S"

/-- The three updates. -/
def update : Option OrchestrationTables := do
  let calculationTypes ← typeDomain.updateRename "COWOS_S" "E2E_COST" [] db.calculationTypes
  let datasetSeries ← seriesDomain.updateRename "COWOS_S" "E2E_COST" [] db.datasetSeries
  let definitionDependencies ←
    requiredDomain.updateRename "COWOS_S" "E2E_COST" [] db.definitionDependencies
  some { db with calculationTypes, datasetSeries, definitionDependencies }

/-- The block of the migration. Its locks keep other writers of the three tables out. -/
def upBlock : Except MigrationError OrchestrationTables :=
  if db.conflictsInIdentity then
    .error (.raised "Naming-01 conflict: dataset_series canonical identity")
  else if db.conflictsInLegacyKey then
    .error (.raised "Naming-01 conflict: dataset_series legacy business key")
  else if db.conflictsInCode then
    .error (.raised "Naming-01 conflict: calculation_types domain/code")
  else if db.conflictsInRequiredDomain then
    .error (.raised "Naming-01 conflict: dependency definition required domain")
  else
    match db.update with
    | some db => .ok db
    | none => .error .uniqueViolation

/-- The migration is one statement: an error leaves the tables as they were. -/
def up : Option MigrationError × OrchestrationTables :=
  match db.upBlock with
  | .ok db => (none, db)
  | .error error => (some error, db)

end OrchestrationTables

end CostEngine
