import CostEngine.Concurrency.Executions
import CostEngine.System.Writers

/-! # Which transactions insert snapshots

A snapshot is inserted by a first Run only, which then moves the version of the snapshot to
`BUILDING` before it commits. -/

namespace CostEngine

open Relational (Table)
open Concurrency (Txn Discipline)

variable {honours : Prop} {st st' : System}

/-! ## The writes of a first Run -/

/-- Every version that is updated is moved to `BUILDING`, and so is the version of every
snapshot, but for the one that is `pending`. -/
structure Sealed (pending : Option Uuid) (ws : List Write) : Prop where
  building : ∀ v, .putDatasetVersion v ∈ ws → v.status = .building
  snapshot : ∀ b, .insertDatasetBuildSnapshot b ∈ ws → some b.datasetVersionId = pending ∨
    ∃ v, .putDatasetVersion v ∈ ws ∧ v.id = b.datasetVersionId

/-- A write that has nothing to do with versions and snapshots. -/
def Write.aside : Write → Prop
  | .putDatasetVersion _ => False
  | .insertDatasetBuildSnapshot _ => False
  | _ => True

namespace Sealed

variable {ws us : List Write} {pending : Option Uuid}

theorem nil : Sealed pending [] := ⟨by simp, by simp⟩

theorem append (h : Sealed pending ws) (hus : ∀ u ∈ us, u.aside) : Sealed pending (ws ++ us) := by
  refine ⟨fun v hv => ?_, fun b hb => ?_⟩
  · rcases List.mem_append.mp hv with hv | hv
    · exact h.building v hv
    · exact (hus _ hv).elim
  · rcases List.mem_append.mp hb with hb | hb
    · refine (h.snapshot b hb).imp_right fun ⟨v, hv, hid⟩ => ?_
      exact ⟨v, List.mem_append_left _ hv, hid⟩
    · exact (hus _ hb).elim

theorem snapshots {b : DatasetBuildSnapshot} (h : Sealed none ws)
    (hus : ∀ u ∈ us, u = .insertDatasetBuildSnapshot b) :
    Sealed (some b.datasetVersionId) (ws ++ us) := by
  refine ⟨fun v hv => ?_, fun c hc => ?_⟩
  · rcases List.mem_append.mp hv with hv | hv
    · exact h.building v hv
    · cases hus _ hv
  · rcases List.mem_append.mp hc with hc | hc
    · rcases h.snapshot c hc with hnone | ⟨v, hv, hid⟩
      · cases hnone
      · exact .inr ⟨v, List.mem_append_left _ hv, hid⟩
    · cases hus _ hc
      exact .inl rfl

theorem version {v : DatasetVersion} (h : Sealed (some v.id) ws) (hv : v.status = .building) :
    Sealed none (ws ++ [.putDatasetVersion v]) := by
  refine ⟨fun w hw => ?_, fun b hb => ?_⟩
  · rcases List.mem_append.mp hw with hw | hw
    · exact h.building w hw
    · cases List.mem_singleton.mp hw
      exact hv
  · rcases List.mem_append.mp hb with hb | hb
    · rcases h.snapshot b hb with hpending | ⟨w, hw, hid⟩
      · exact .inr ⟨v, by simp, (Option.some.inj hpending).symm⟩
      · exact .inr ⟨w, List.mem_append_left _ hw, hid⟩
    · cases List.mem_singleton.mp hb

end Sealed

/-! ## First Run -/

variable (honours) in
/-- Added to sealed writes, those of the statements `p` leave them sealed. -/
def Seals {α : Type} (p : Tx α) : Prop :=
  ∀ (g fl : Moment) (L : List RowLock) (ws : List Write), Sealed none ws →
    (discipline honours).Wp g fl L ws p fun o => ∀ r, o.result = .ok r → Sealed none o.writes

namespace Seals

variable {α β : Type} {p : Tx α} {f : α → Tx β}

theorem bind (hp : Seals honours p) (hf : ∀ a, Seals honours (f a)) :
    Seals honours (p >>= f) := by
  intro g fl L ws hws
  refine Discipline.wp_bind (Discipline.wp_mono (hp g fl L ws hws) fun o ho => ?_)
  unfold Discipline.Continues
  split
  · rename_i a ha
    exact hf a g o.last o.locks o.writes (ho a ha)
  · exact fun r hr => by cases hr

theorem of_writes (hp : p.Writes Write.aside) : Seals honours p := by
  intro g fl L ws hws
  refine Discipline.wp_writes hp fun o us hus hall r _ => ?_
  rw [hus]
  exact hws.append hall

theorem pure {a : α} : Seals honours (.pure a : Tx α) := of_writes trivial

theorem throw {e : ServiceError} : Seals honours (.throw e : Tx α) := of_writes trivial

theorem select {f : Store → α} : Seals honours (.select f) := of_writes (Txn.writes_select f)

end Seals

theorem writes_insertDatasetBuildSnapshot {P : Write → Prop} {env : TxEnv} (id v : Uuid)
    (h : P (.insertDatasetBuildSnapshot ⟨id, v, env.now⟩)) :
    (insertDatasetBuildSnapshot env id v).Writes P :=
  Txn.writes_bind (Txn.writes_insertRow h) fun _ => Txn.writes_lock _

/-- The statements from the insertion of the snapshot to the update of its version. -/
theorem seals_freezeDraftBuild {env : TxEnv} {context : CalculationRunContext}
    {definitions : List DependencyDefinition} {series : List DatasetSeries}
    {versions : List PublishedUpstreamVersion} :
    Seals honours (freezeDraftBuild env context definitions series versions) := by
  refine .bind .select fun state => ?_
  split
  · exact .throw
  refine .bind (.of_writes (writes_freezeDefinitions (fun _ => trivial) _ _ _)) fun _ => ?_
  intro g fl L ws hws
  refine Discipline.wp_bind (Discipline.wp_writes (writes_insertDatasetBuildSnapshot
    (P := fun u => u = .insertDatasetBuildSnapshot ⟨env.uuid 0, context.datasetVersionId, env.now⟩)
    _ _ rfl) fun o₁ us₁ h₁ hus₁ => ?_)
  have hs₁ := hws.snapshots hus₁
  rw [← h₁] at hs₁
  unfold Discipline.Continues
  split
  swap
  · exact fun r hr => by cases hr
  refine Discipline.wp_bind (Discipline.wp_writes
    (writes_freezeUpstreams (P := Write.aside) (fun _ => trivial) _ _ _) fun o₂ us₂ h₂ hus₂ => ?_)
  have hs₂ := hs₁.append hus₂
  rw [← h₂] at hs₂
  unfold Discipline.Continues
  split
  swap
  · exact fun r hr => by cases hr
  refine Discipline.wp_bind (Discipline.wp_bind (Discipline.wp_updateReturning_image ?_ ?_))
  · intro o₃ h₃ _
    unfold Discipline.Continues
    rw [h₃]
    refine Discipline.wp_pure ?_
    exact Discipline.wp_throw fun r hr => by cases hr
  · intro o₃ s row hrow h₃ h₃'
    have hid : row.id = context.datasetVersionId :=
      Table.get?_key (Option.mem_filter_iff.mp hrow).1
    have hs₃ := Sealed.version (v := row.building env.now) (hid ▸ hs₂) rfl
    unfold Discipline.Continues
    rw [h₃]
    refine Discipline.wp_pure ?_
    refine Discipline.wp_pure fun r _ => ?_
    rw [h₃']
    exact hs₃

theorem seals_initializeOrReuseDraftDataset {env : TxEnv} {context : CalculationRunContext} :
    Seals honours (initializeOrReuseDraftDataset env context) := by
  unfold initializeOrReuseDraftDataset requireBuildingSnapshot
  repeat' first
    | exact .pure
    | exact .throw
    | exact .select
    | exact seals_freezeDraftBuild
    | exact .of_writes (Txn.writes_selectForUpdate _ _)
    | exact .of_writes (writes_lockCalculationTypes _ _)
    | exact .of_writes (writes_lockUpstreams _)
    | exact .of_writes (writes_findUpstreamVersions _)
    | refine .bind ?_ fun _ => ?_
    | dsimp only
    | split

theorem seals_prepareCalculationJobRun {env : TxEnv} {jobId : Uuid} :
    Seals honours (prepareCalculationJobRun jobId env) := by
  unfold prepareCalculationJobRun loadCalculationRunContext reuseBuildingDataset
    requireBuildingSnapshot
  repeat' first
    | exact .pure
    | exact .throw
    | exact .select
    | exact seals_initializeOrReuseDraftDataset
    | exact .of_writes (writes_prepareSelectedJobAttempt (fun _ _ => trivial) _ _)
    | exact .of_writes (Txn.writes_selectForUpdate _ _)
    | refine .bind ?_ fun _ => ?_
    | dsimp only
    | split

/-! ## The rows after the writes -/

namespace Store

variable {s : Store} {ws : List Write} {id : Uuid}

theorem of_foldl_snapshot {b : DatasetBuildSnapshot}
    (h : (ws.foldl Store.apply s).datasetBuildSnapshots.get? id = some b) :
    s.datasetBuildSnapshots.get? id = some b ∨ .insertDatasetBuildSnapshot b ∈ ws := by
  induction ws generalizing s with
  | nil => exact .inl h
  | cons u ws ih =>
      rcases ih h with h | h
      swap
      · exact .inr (List.mem_cons_of_mem _ h)
      cases u with
      | insertDatasetBuildSnapshot b' =>
          rcases Table.of_get?_insert h with h | rfl
          · exact .inl h
          · exact .inr List.mem_cons_self
      | _ => exact .inl h

theorem foldl_datasetBuildSnapshots {t : Transaction}
    (ht : ∀ b, t.mayWrite (.insertDatasetBuildSnapshot b) = false)
    (hws : ∀ u ∈ ws, t.mayWrite u = true) :
    (ws.foldl Store.apply s).datasetBuildSnapshots = s.datasetBuildSnapshots := by
  induction ws generalizing s with
  | nil => rfl
  | cons u ws ih =>
      rw [List.foldl_cons, ih fun u' hu' => hws u' (List.mem_cons_of_mem _ hu')]
      have hu := hws u List.mem_cons_self
      cases u with
      | insertDatasetBuildSnapshot b => rw [ht b] at hu; cases hu
      | _ => rfl

theorem Building.foldl (h : s.Building id)
    (hws : ∀ v, .putDatasetVersion v ∈ ws → v.status = .building) :
    (ws.foldl Store.apply s).Building id := by
  induction ws generalizing s with
  | nil => exact h
  | cons u ws ih =>
      refine ih ?_ fun v hv => hws v (List.mem_cons_of_mem _ hv)
      obtain ⟨w, hw, hbuilding⟩ := h
      cases u with
      | insertDatasetVersion v => exact ⟨w, Table.get?_insert_of_some hw, hbuilding⟩
      | putDatasetVersion v =>
          obtain ⟨w', hw'⟩ := Option.ne_none_iff_exists'.mp
            (mt Table.get?_put_eq_none.mp (Table.row_ne_none hw) : (s.datasetVersions.put v).get? id ≠ none)
          refine ⟨w', hw', ?_⟩
          rcases Table.of_get?_put hw' with hold | rfl
          · rwa [← Option.some.inj (hw.symm.trans hold)]
          · exact hws w' List.mem_cons_self
      | _ => exact ⟨w, hw, hbuilding⟩

/-- A version that one of the writes updates is in `BUILDING` at the end, if every update
moves its version there. -/
theorem building_of_mem {v : DatasetVersion} (hv : .putDatasetVersion v ∈ ws)
    (hrow : s.datasetVersions.get? v.id ≠ none)
    (hws : ∀ v, .putDatasetVersion v ∈ ws → v.status = .building) :
    (ws.foldl Store.apply s).Building v.id := by
  induction ws generalizing s with
  | nil => cases hv
  | cons u ws ih =>
      have hrest : ∀ v, .putDatasetVersion v ∈ ws → v.status = .building :=
        fun v hv => hws v (List.mem_cons_of_mem _ hv)
      rcases List.mem_cons.mp hv with rfl | hmem
      · obtain ⟨w, hw⟩ := Option.ne_none_iff_exists'.mp hrow
        have hput : (s.datasetVersions.put v).get? v.id = some v := by
          rw [Table.get?_put, if_pos rfl, hw]
          rfl
        exact Building.foldl (s := s.apply (.putDatasetVersion v)) ⟨v, hput, hws v hv⟩ hrest
      · refine ih hmem ?_ hrest
        obtain ⟨w, hw⟩ := Option.ne_none_iff_exists'.mp hrow
        cases u with
        | insertDatasetVersion v' => exact Table.row_ne_none (Table.get?_insert_of_some hw)
        | putDatasetVersion v' => exact mt Table.get?_put_eq_none.mp hrow
        | _ => exact hrow

end Store

/-! ## One step -/

/-- **Only a freeze inserts a snapshot.** -/
theorem Reachable.freezes_of_snapshot (h : Reachable honours st)
    (hs : (machine honours).Step st st') {id : Uuid} {b : DatasetBuildSnapshot}
    (hb : b ∈ st'.shared.db.snapshotsOf id)
    (hnew : st.shared.db.datasetBuildSnapshots.get? b.id = none) :
    st.shared.db.Freezes st'.shared.db id := by
  obtain ⟨hrow, howner⟩ := Store.mem_snapshotsOf.mp hb
  have hmoved : st'.shared.db.datasetBuildSnapshots ≠ st.shared.db.datasetBuildSnapshots := by
    intro he
    rw [he] at hrow
    exact Table.no_row hnew hrow
  rcases step_db hs with ⟨i, t, r, ws, req, log, k, a, hi, hr, rfl, hst⟩ | ⟨locks, hc⟩ | hst
  swap
  · exact absurd hc.datasetBuildSnapshots hmoved
  swap
  · exact absurd (by rw [hst]) hmoved
  obtain ⟨last, hspec⟩ := h.commits hi hr
  have hdb : st'.shared.db = a.writes.foldl Store.apply st.shared.db := by rw [hst]
  -- The transaction is a first Run, whose writes are sealed.
  have hkept : ∀ t : Transaction, (∀ b, t.mayWrite (.insertDatasetBuildSnapshot b) = false) →
      (∀ u ∈ a.writes, t.mayWrite u = true) → False := fun t ht hws =>
    hmoved (hdb ▸ Store.foldl_datasetBuildSnapshots ht hws)
  have hfootprint := hspec.footprint
  cases t with
  | prepareCalculationJobRun jobId =>
      obtain ⟨g₀, last', -, -, hexec⟩ := h.safe.executed hi (r := .ok r) hr
      have hsealed : Sealed none a.writes := seals_prepareCalculationJobRun _ _ _ _ .nil _ hexec r rfl
      rw [hdb] at hrow
      rcases Store.of_foldl_snapshot hrow with hold | hmem
      · exact absurd hold (by rw [hnew]; simp)
      rcases hsealed.snapshot b hmem with hnone | ⟨v, hv, hid⟩
      · cases hnone
      rw [howner] at hid
      -- The version was there, so the update moved it.
      have hversion : st.shared.db.datasetVersions.get? id ≠ none := by
        intro hnone
        have hnoneAdded : st.shared.db.NoneAdded st'.shared.db :=
          hdb ▸ Store.NoneAdded.foldl (by simp) hfootprint _ .refl
        have hreferences := (h.step hs).consistent.references.snapshot b.id b (hdb ▸ hrow)
        rw [howner] at hreferences
        exact hreferences (hnoneAdded.versions id hnone)
      obtain ⟨v', hv', hbuilding⟩ := Store.building_of_mem hv (hid ▸ hversion) hsealed.building
      rw [hid, ← hdb] at hv'
      obtain ⟨w, hw⟩ := Option.ne_none_iff_exists'.mp hversion
      obtain ⟨now, hsingle⟩ := h.single hs
      obtain ⟨w', hw', hstep⟩ := hsingle.versions id w hw
      obtain rfl := Option.some.inj (hv'.symm.trans hw')
      rcases hstep with rfl | hstep
      · -- A version in `BUILDING` has its snapshot.
        have hbuild := (h.consistent.version id v' hw).build
        unfold Store.Build at hbuild
        rw [hbuilding, Table.get?_key hw] at hbuild
        obtain ⟨c, hc, -⟩ := hbuild
        have hsame := (h.grows (.step (.refl _) hs)).db.snapshotsOf id (by rw [hc]; simp)
        rw [hsame] at hb
        exact absurd hnew (Table.row_ne_none (Store.mem_snapshotsOf.mp hb).1)
      · refine ⟨w, v', hw, ?_, hv', hbuilding⟩
        have hnext := hstep.step.status
        rw [hbuilding] at hnext
        generalize w.status = status at hnext
        cases hnext
        rfl
  | _ => exact (hkept _ (fun _ => rfl) hfootprint).elim

end CostEngine
