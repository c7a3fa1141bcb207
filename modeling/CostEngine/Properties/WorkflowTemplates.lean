import CostEngine.WorkflowTemplate.Catalog

/-! # Accepted catalogs are the well-formed ones -/

namespace CostEngine

variable {steps rest : List WorkflowStep} {step : WorkflowStep} {template : WorkflowTemplate}
  {templates : List WorkflowTemplate} {ids : List String} {id : String}

/-! ## Well-formed catalogs -/

structure WorkflowStep.WellFormed (step : WorkflowStep) : Prop where
  id : step.id ≠ ""
  operation : step.operation ∈ workflowOperations
  domain : ∀ domain, step.domain = some domain → domain ∈ datasetDomains
  creates : step.operation = "CREATE_DATASET" → step.domain ≠ none

/-- The step `id` has `prerequisite` among its prerequisites. -/
def Requires (steps : List WorkflowStep) (id prerequisite : String) : Prop :=
  ∃ step ∈ steps, step.id = id ∧ prerequisite ∈ step.prerequisites

structure WorkflowTemplate.WellFormed (template : WorkflowTemplate) : Prop where
  id : template.id ≠ ""
  /-- A safe integer from 1 on. -/
  version : ∃ version : ℕ, template.version = .finite version ∧ 1 ≤ version ∧ version ≤ 2 ^ 53 - 1
  steps : ∀ step ∈ template.steps, step.WellFormed
  distinct : (template.steps.map (·.id)).Nodup
  known : ∀ step ∈ template.steps, ∀ prerequisite ∈ step.prerequisites,
    ∃ step' ∈ template.steps, step'.id = prerequisite
  acyclic : ∀ id, ¬ Relation.TransGen (Requires template.steps) id id

structure WellFormedCatalog (templates : List WorkflowTemplate) : Prop where
  distinct : (templates.map (·.id)).Nodup
  templates : ∀ template ∈ templates, template.WellFormed

/-! ## Steps -/

theorem WorkflowStep.wellFormed_iff : step.WellFormed ↔ step.id ≠ ""
    ∧ step.operation ∈ workflowOperations ∧ ¬ ((∃ domain ∈ step.domain, domain ∉ datasetDomains)
      ∨ (step.operation = "CREATE_DATASET" ∧ step.domain = none)) := by
  constructor
  · rintro ⟨hid, hoperation, hdomain, hcreates⟩
    refine ⟨hid, hoperation, ?_⟩
    rintro (⟨domain, hmem, hnot⟩ | ⟨hcreate, hnone⟩)
    · exact hnot (hdomain domain hmem)
    · exact hcreates hcreate hnone
  · rintro ⟨hid, hoperation, hdomain⟩
    refine ⟨hid, hoperation, fun domain hd => ?_, fun hcreate hnone => ?_⟩
    · by_contra hnot
      exact hdomain (.inl ⟨domain, hd, hnot⟩)
    · exact hdomain (.inr ⟨hcreate, hnone⟩)

/-- The loop reads all steps, or one of them is not in order. -/
theorem readSteps_ok (steps : List WorkflowStep) {all : List WorkflowStep} :
    readSteps steps rest = .ok all ↔ all = steps ++ rest
      ∧ (∀ step ∈ rest, step.WellFormed)
      ∧ (steps.map (·.id)).Disjoint (rest.map (·.id)) ∧ (rest.map (·.id)).Nodup := by
  induction rest generalizing steps with
  | nil => simp [readSteps, eq_comm]
  | cons step rest ih =>
      unfold readSteps
      split
      · rename_i hid
        refine ⟨nofun, fun ⟨_, hformed, hdisjoint, _⟩ => ?_⟩
        rcases hid with hempty | hmem
        · exact absurd hempty (hformed step List.mem_cons_self).id
        · exact absurd List.mem_cons_self (hdisjoint hmem)
      rename_i hid
      split
      · rename_i hoperation
        refine ⟨nofun, fun ⟨_, hformed, _⟩ => ?_⟩
        exact absurd (hformed step List.mem_cons_self).operation hoperation
      rename_i hoperation
      split
      · rename_i hdomain
        refine ⟨nofun, fun ⟨_, hformed, _⟩ => ?_⟩
        exact absurd hdomain (WorkflowStep.wellFormed_iff.mp (hformed step List.mem_cons_self)).2.2
      rename_i hdomain
      obtain ⟨hid, hnew⟩ := not_or.mp hid
      have hstep : step.WellFormed :=
        WorkflowStep.wellFormed_iff.mpr ⟨hid, not_not.mp hoperation, hdomain⟩
      rw [ih, List.append_assoc, List.map_append]
      simp only [List.singleton_append, List.forall_mem_cons, List.map_cons, List.map_nil,
        List.nodup_cons]
      constructor
      · rintro ⟨hall, hrest, hdisjoint, hnodup⟩
        obtain ⟨hsteps, hself⟩ := List.disjoint_append_left.mp hdisjoint
        refine ⟨hall, ⟨hstep, hrest⟩, ?_, ⟨fun hmem => hself List.mem_cons_self hmem, hnodup⟩⟩
        exact List.disjoint_cons_right.mpr ⟨hnew, hsteps⟩
      · rintro ⟨hall, ⟨-, hrest⟩, hdisjoint, hself, hnodup⟩
        refine ⟨hall, hrest, List.disjoint_append_left.mpr
          ⟨(List.disjoint_cons_right.mp hdisjoint).2, ?_⟩, hnodup⟩
        exact List.disjoint_singleton.mpr hself |>.symm

/-! ## Prerequisites -/

section Prerequisites

variable (hdistinct : (steps.map (·.id)).Nodup)

include hdistinct

theorem prerequisitesOf_iff {successors : List String} : prerequisitesOf steps id = some successors ↔
    ∃ step ∈ steps, step.id = id ∧ step.prerequisites = successors := by
  unfold prerequisitesOf
  rw [Option.map_eq_some_iff]
  constructor
  · rintro ⟨step, hstep, rfl⟩
    exact ⟨step, List.mem_of_find?_eq_some hstep, by simpa using List.find?_some hstep, rfl⟩
  · rintro ⟨step, hstep, rfl, rfl⟩
    refine ⟨step, ?_, rfl⟩
    obtain ⟨step', hfound⟩ := Option.isSome_iff_exists.mp
      (List.find?_isSome.mpr ⟨step, hstep, decide_eq_true rfl⟩ :
        (steps.find? (·.id = step.id)).isSome)
    have hsame : step' = step := List.inj_on_of_nodup_map hdistinct
      (List.mem_of_find?_eq_some hfound) hstep (by simpa using List.find?_some hfound)
    exact hsame ▸ hfound

theorem edge_iff {prerequisite : String} :
    Graph.Edge (prerequisitesOf steps) id prerequisite ↔ Requires steps id prerequisite := by
  unfold Graph.Edge Requires
  constructor
  · rintro ⟨successors, hknown, hmem⟩
    obtain ⟨step, hstep, hid, rfl⟩ := (prerequisitesOf_iff hdistinct).mp hknown
    exact ⟨step, hstep, hid, hmem⟩
  · rintro ⟨step, hstep, hid, hmem⟩
    exact ⟨_, (prerequisitesOf_iff hdistinct).mpr ⟨step, hstep, hid, rfl⟩, hmem⟩

/-- Every step is sound just when all prerequisites are steps and none leads back to itself. -/
theorem sound_iff : (∀ id ∈ steps.map (·.id), Graph.Sound (prerequisitesOf steps) id) ↔
    (∀ step ∈ steps, ∀ prerequisite ∈ step.prerequisites, ∃ step' ∈ steps, step'.id = prerequisite)
      ∧ ∀ id, ¬ Relation.TransGen (Requires steps) id id := by
  have hedges : Graph.Edge (prerequisitesOf steps) = Requires steps := by
    funext id prerequisite
    exact propext (edge_iff hdistinct)
  constructor
  · intro hsound
    refine ⟨fun step hstep prerequisite hmem => ?_, fun id hcycle => ?_⟩
    · have hedge : Graph.Edge (prerequisitesOf steps) step.id prerequisite :=
        (edge_iff hdistinct).mpr ⟨step, hstep, rfl, hmem⟩
      obtain ⟨_, successors, hknown, -⟩ := (hsound _ (List.mem_map_of_mem hstep)).behind hedge
      obtain ⟨step', hstep', hid, -⟩ := (prerequisitesOf_iff hdistinct).mp hknown
      exact ⟨step', hstep', hid⟩
    · obtain ⟨prerequisite, ⟨step, hstep, rfl, -⟩, -⟩ := Relation.TransGen.head'_iff.mp hcycle
      exact (hsound _ (List.mem_map_of_mem hstep)).irrefl (hedges ▸ hcycle)
  · rintro ⟨hknown, hacyclic⟩
    refine Graph.sound_of_acyclic (fun id hid => ?_) (fun id hid prerequisite hedge => ?_)
      (hedges ▸ hacyclic)
    · obtain ⟨step, hstep, rfl⟩ := List.mem_map.mp hid
      exact ⟨_, (prerequisitesOf_iff hdistinct).mpr ⟨step, hstep, rfl, rfl⟩⟩
    · obtain ⟨step, hstep, -, hmem⟩ := (edge_iff hdistinct).mp hedge
      obtain ⟨step', hstep', rfl⟩ := hknown step hstep prerequisite hmem
      exact List.mem_map_of_mem hstep'

end Prerequisites

/-! ## Versions -/

theorem version_iff {version : JsNumber} :
    (!version.isSafeInteger || version.lt (.finite 1)) = false ↔
      ∃ n : ℕ, version = .finite n ∧ 1 ≤ n ∧ n ≤ 2 ^ 53 - 1 := by
  cases version with
  | nan => simp [JsNumber.isSafeInteger]
  | infinity negative => simp [JsNumber.isSafeInteger]
  | finite value =>
      simp only [JsNumber.isSafeInteger, JsNumber.lt, Bool.or_eq_false_iff, Bool.not_eq_false',
        Bool.and_eq_true, decide_eq_true_eq, decide_eq_false_iff_not, JsNumber.finite.injEq]
      constructor
      · rintro ⟨⟨hden, hnum⟩, hone⟩
        have hvalue : value = (value.num : ℚ) := (Rat.den_eq_one_iff value).mp hden |>.symm
        have hpos : ¬ value.num < 1 := by
          rw [hvalue] at hone
          exact_mod_cast hone
        refine ⟨value.num.natAbs, ?_, by omega, by omega⟩
        rw [hvalue]
        have habs : ((value.num.natAbs : ℕ) : ℤ) = value.num := by omega
        exact congrArg (fun n : ℤ => (n : ℚ)) habs.symm
      · rintro ⟨n, rfl, hone, hmax⟩
        refine ⟨⟨rfl, ?_⟩, ?_⟩
        · show (n : ℤ).natAbs ≤ _
          omega
        · have hone : ¬ n < 1 := by omega
          exact_mod_cast hone

/-! ## Templates -/

/-- One turn of the loop, with enough fuel. -/
theorem validateWorkflowTemplate_spec (ids : List String) (template : WorkflowTemplate) :
    ∃ result, (∀ fuel, template.steps.length < fuel →
        validateWorkflowTemplate fuel ids template = some result)
      ∧ ∀ ids', result = .ok ids' ↔
        ids' = template.id :: ids ∧ template.id ∉ ids ∧ template.WellFormed := by
  by_cases hid : template.id = "" ∨ template.id ∈ ids
  · refine ⟨.error "Invalid or duplicate workflow template ID", fun fuel _ => if_pos hid,
      fun ids' => ⟨fun h => (by cases h), ?_⟩⟩
    rintro ⟨-, hnew, hformed⟩
    rcases hid with hempty | hmem
    · exact absurd hempty hformed.id
    · exact absurd hmem hnew
  cases hversion : !template.version.isSafeInteger || template.version.lt (.finite 1) with
  | true =>
      refine ⟨.error "Invalid workflow template version", fun fuel _ => ?_,
        fun ids' => ⟨fun h => (by cases h), ?_⟩⟩
      · rw [validateWorkflowTemplate, if_neg hid, if_pos hversion]
      · rintro ⟨-, -, hformed⟩
        rw [version_iff.mpr hformed.version] at hversion
        cases hversion
  | false =>
      have hsafe : ¬ (!template.version.isSafeInteger || template.version.lt (.finite 1)) = true := by
        simp [hversion]
      have hfirst := hid
      obtain ⟨hid, hnew⟩ := not_or.mp hid
      cases hread : readSteps [] template.steps with
      | error message =>
          refine ⟨.error message,
            fun fuel _ => by rw [validateWorkflowTemplate, if_neg hfirst, if_neg hsafe, hread],
            fun ids' => ⟨fun h => (by cases h), ?_⟩⟩
          rintro ⟨-, -, hformed⟩
          have hok := (readSteps_ok []).mpr
            ⟨rfl, hformed.steps, List.disjoint_nil_left _, hformed.distinct⟩
          rw [hread] at hok
          cases hok
      | ok steps =>
          obtain ⟨rfl, hsteps, -, hdistinct⟩ := (readSteps_ok []).mp hread
          rw [List.nil_append] at hread
          have hnodes : ∀ id successors, prerequisitesOf template.steps id = some successors →
              id ∈ template.steps.map (·.id) := by
            intro id successors hknown
            obtain ⟨step, hstep, rfl, -⟩ := (prerequisitesOf_iff hdistinct).mp hknown
            exact List.mem_map_of_mem hstep
          have hfuel : (template.steps.map (·.id)).length < template.steps.length + 1 := by
            rw [List.length_map]
            exact Nat.lt_succ_self _
          have hfinds := Graph.search_finds hnodes hfuel
            (template.steps.map (·.id))
          cases hsearch : Graph.visitAll (Graph.visit (prerequisitesOf template.steps)
              (template.steps.length + 1)) (template.steps.map (·.id)) ⟨[], []⟩ with
          | none =>
              rw [hsearch] at hfinds
              exact hfinds.elim
          | some r =>
              rw [hsearch] at hfinds
              have hfuel : ∀ fuel, template.steps.length < fuel →
                  Graph.visitAll (Graph.visit (prerequisitesOf template.steps) fuel)
                    (template.steps.map (·.id)) ⟨[], []⟩ = some r :=
                fun fuel hlt => Graph.visitAll_mono (fun _ _ _ => Graph.visit_le hlt) _ _ _ hsearch
              have hformed : template.WellFormed ↔ ∀ id ∈ template.steps.map (·.id),
                  Graph.Sound (prerequisitesOf template.steps) id := by
                rw [sound_iff hdistinct]
                exact ⟨fun h => ⟨h.known, h.acyclic⟩, fun h =>
                  ⟨hid, version_iff.mp hversion, hsteps, hdistinct, h.1, h.2⟩⟩
              cases r with
              | error e =>
                  obtain ⟨id, hmem, hbad⟩ := hfinds
                  refine ⟨.error (workflowSearchError e), fun fuel hlt => ?_,
                    fun ids' => ⟨fun h => (by cases h),
                      fun h => absurd (hformed.mp h.2.2 id hmem) hbad⟩⟩
                  rw [validateWorkflowTemplate, if_neg hfirst, if_neg hsafe, hread]
                  dsimp only
                  rw [hfuel fuel hlt]
              | ok marks =>
                  obtain ⟨-, hvisited, -, hsound⟩ := hfinds
                  have hwell := hformed.mpr fun id hmem => hsound id (hvisited id hmem)
                  refine ⟨.ok (template.id :: ids), fun fuel hlt => ?_, fun ids' => ?_⟩
                  · rw [validateWorkflowTemplate, if_neg hfirst, if_neg hsafe, hread]
                    dsimp only
                    rw [hfuel fuel hlt]
                  · rw [Except.ok.injEq, eq_comm, and_iff_left ⟨hnew, hwell⟩]

theorem validateFrom_spec (templates : List WorkflowTemplate) : ∀ ids, ∃ result,
    (∀ fuel, (∀ template ∈ templates, template.steps.length < fuel) →
        validateFrom fuel ids templates = some result)
      ∧ (result = .ok () ↔ ids.Disjoint (templates.map (·.id)) ∧ WellFormedCatalog templates) := by
  induction templates with
  | nil =>
      intro ids
      refine ⟨.ok (), fun _ _ => rfl, fun _ => ⟨List.disjoint_nil_right _, List.nodup_nil, nofun⟩,
        fun _ => rfl⟩
  | cons template templates ih =>
      intro ids
      obtain ⟨result, hfuel, hresult⟩ := validateWorkflowTemplate_spec ids template
      cases result with
      | error message =>
          refine ⟨.error message, fun fuel hlt => ?_, nofun, fun ⟨hdisjoint, hcatalog⟩ => ?_⟩
          · rw [validateFrom, hfuel fuel (hlt template List.mem_cons_self)]
          · have hok := (hresult _).mpr ⟨rfl, fun hmem => hdisjoint hmem List.mem_cons_self,
              hcatalog.templates template List.mem_cons_self⟩
            cases hok
      | ok ids' =>
          obtain ⟨rfl, hnew, hformed⟩ := (hresult ids').mp rfl
          obtain ⟨result', hfuel', hresult'⟩ := ih (template.id :: ids)
          refine ⟨result', fun fuel hlt => ?_, hresult'.trans ?_⟩
          · rw [validateFrom, hfuel fuel (hlt template List.mem_cons_self)]
            exact hfuel' fuel fun t ht => hlt t (List.mem_cons_of_mem _ ht)
          · rw [List.disjoint_cons_left, List.map_cons, List.disjoint_cons_right]
            constructor
            · rintro ⟨⟨hself, hdisjoint⟩, hdistinct, hrest⟩
              exact ⟨⟨hnew, hdisjoint⟩, List.nodup_cons.mpr ⟨hself, hdistinct⟩,
                List.forall_mem_cons.mpr ⟨hformed, hrest⟩⟩
            · rintro ⟨⟨-, hdisjoint⟩, hdistinct, hall⟩
              obtain ⟨hself, hdistinct⟩ := List.nodup_cons.mp hdistinct
              exact ⟨⟨hself, hdisjoint⟩, hdistinct, fun t ht => hall t (List.mem_cons_of_mem _ ht)⟩

/-- The validation ends on every list of templates, normally if and only if they are well-formed,
and else with an error. -/
theorem validates_wellFormed (templates : List WorkflowTemplate) : ∃ result,
    (∀ fuel, (∀ template ∈ templates, template.steps.length < fuel) →
        validateWorkflowTemplates fuel templates = some result)
      ∧ (result = .ok () ↔ WellFormedCatalog templates) := by
  obtain ⟨result, hfuel, hresult⟩ := validateFrom_spec templates []
  exact ⟨result, hfuel, hresult.trans ⟨And.right, fun h => ⟨List.disjoint_nil_left _, h⟩⟩⟩

end CostEngine
