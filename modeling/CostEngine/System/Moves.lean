import CostEngine.Concurrency.Counting
import CostEngine.System.Snapshots

/-! # Which version a transaction moves

Of the transactions, a first Run and the lifecycle commands update a version, and each of
them only one. -/

namespace CostEngine

open Relational (Table)
open Concurrency (Txn Discipline)

variable {honours : Prop} {st st' : System}

/-! ## First Run -/

def Write.moves : Write → Bool
  | .putDatasetVersion _ => true
  | _ => false

variable {env : TxEnv} {context : CalculationRunContext}

theorem atMost_freezeDraftBuild {definitions : List DependencyDefinition}
    {series : List DatasetSeries} {versions : List PublishedUpstreamVersion} :
    (freezeDraftBuild env context definitions series versions).AtMost Write.moves 1 := by
  refine Txn.atMost_after (Txn.writes_select _) fun state => ?_
  split
  · trivial
  refine Txn.atMost_after (writes_freezeDefinitions (fun _ => rfl) _ _ _) fun _ => ?_
  refine Txn.atMost_after (writes_insertDatasetBuildSnapshot _ _ rfl) fun _ => ?_
  refine Txn.atMost_after (writes_freezeUpstreams (fun _ => rfl) _ _ _) fun _ => ?_
  refine Txn.atMost_before ?_ fun transitioned => ?_
  · exact Txn.atMost_before Txn.atMost_updateReturning fun _ => trivial
  · split <;> trivial

theorem writes_requireBuildingSnapshot {P : Write → Prop} :
    (requireBuildingSnapshot context).Writes P := by
  refine Txn.writes_bind (Txn.writes_select _) fun state => ?_
  split
  · split <;> trivial
  · trivial

theorem atMost_initializeOrReuseDraftDataset :
    (initializeOrReuseDraftDataset env context).AtMost Write.moves 1 := by
  refine Txn.atMost_after (writes_lockCalculationTypes _ _) fun _ => ?_
  refine Txn.atMost_after (Txn.writes_select _) fun definitions => ?_
  dsimp only
  split
  · trivial
  refine Txn.atMost_after (Txn.writes_select _) fun domains => ?_
  refine Txn.atMost_after (writes_lockUpstreams _) fun upstreams => ?_
  split
  · trivial
  refine Txn.atMost_after (writes_findUpstreamVersions _) fun versions => ?_
  split
  · trivial
  refine Txn.atMost_after (Txn.writes_selectForUpdate _ _) fun locked => ?_
  split
  · trivial
  split
  · exact atMost_freezeDraftBuild
  split
  · exact Txn.atMost_of_writes writes_requireBuildingSnapshot
  · trivial

theorem writes_loadCalculationRunContext {P : Write → Prop} (jobId : Uuid) :
    (loadCalculationRunContext jobId).Writes P := by
  refine Txn.writes_bind (Txn.writes_select _) fun found => ?_
  split
  · trivial
  · exact Txn.writes_bind (Txn.writes_select _) fun _ => trivial

theorem atMost_prepareCalculationJobRun {jobId : Uuid} :
    (prepareCalculationJobRun jobId env).AtMost Write.moves 1 := by
  refine Txn.atMost_after (writes_loadCalculationRunContext _) fun found => ?_
  split
  · trivial
  split
  · trivial
  split
  · exact Txn.atMost_before atMost_initializeOrReuseDraftDataset fun _ =>
      writes_prepareSelectedJobAttempt (fun _ _ => rfl) _ _
  split
  · refine Txn.atMost_before (Txn.atMost_after (Txn.writes_selectForUpdate _ _) fun locked => ?_)
      fun _ => writes_prepareSelectedJobAttempt (fun _ _ => rfl) _ _
    split
    · trivial
    split
    · trivial
    · exact Txn.atMost_of_writes writes_requireBuildingSnapshot
  · trivial

/-! ## The rows -/

theorem Store.foldl_moves {s : Store} {ws : List Write}
    (hinsert : ∀ v, .insertDatasetVersion v ∉ ws) (hone : ws.countP Write.moves ≤ 1) :
    (ws.foldl Store.apply s).datasetVersions = s.datasetVersions
      ∨ ∃ v, .putDatasetVersion v ∈ ws
        ∧ (ws.foldl Store.apply s).datasetVersions = s.datasetVersions.put v := by
  induction ws generalizing s with
  | nil => exact .inl rfl
  | cons u ws ih =>
      rw [List.countP_cons] at hone
      have hinsert' : ∀ v, .insertDatasetVersion v ∉ ws :=
        fun v hv => hinsert v (List.mem_cons_of_mem _ hv)
      have hrest := ih (s := s.apply u) hinsert' (by omega)
      cases u with
      | insertDatasetVersion v => exact absurd List.mem_cons_self (hinsert v)
      | putDatasetVersion v =>
          refine .inr ⟨v, List.mem_cons_self, ?_⟩
          rcases hrest with hsame | ⟨w, hw, -⟩
          · exact hsame
          · have hzero : ws.countP Write.moves = 0 := by
              rw [show Write.moves (.putDatasetVersion v) = true from rfl, if_pos rfl] at hone
              omega
            exact absurd rfl (List.countP_eq_zero.mp hzero _ hw)
      | _ =>
          refine hrest.imp_right fun ⟨w, hw, hput⟩ => ?_
          exact ⟨w, List.mem_cons_of_mem _ hw, hput⟩

/-! ## One step -/

/-- The version that a transaction may update, and the status to which it moves it. -/
inductive Transaction.Moves (s : Store) : Transaction → Uuid → DatasetVersionStatus → Prop
  | prepare (j : CalculationJob) : s.calculationJobs.get? j.id = some j →
      Moves s (.prepareCalculationJobRun j.id) j.outputDatasetVersionId .building
  | submit (id : Uuid) : Moves s (.submitDatasetValidation id) id .validating
  | publish (id seriesId : Uuid) :
      Moves s (.decideValidatedDataset id seriesId .published) id .published
  | reject (id seriesId : Uuid) :
      Moves s (.decideValidatedDataset id seriesId .rejected) id .rejected
  | abandon (id seriesId : Uuid) : Moves s (.abandonDatasetVersion id seriesId) id .abandoned

/-- A transaction that updates the row `v` to `v'` and no other version. -/
structure MovesVersion (t : Transaction) (v v' : DatasetVersion) (s s' : Store) : Prop where
  row : s.datasetVersions.get? v.id = some v
  next : v.status.Next v'.status
  target : t.Moves s v.id v'.status
  columns : v'.id = v.id ∧ v'.datasetSeriesId = v.datasetSeriesId ∧ v'.version = v.version
  put : s'.datasetVersions = s.datasetVersions.put v'

/-- A lifecycle command that succeeds leaves the versions alone or moves one. -/
theorem LifecycleSpec.moves {t : Transaction} {id : Uuid} {target : LifecycleTarget} {g : Moment}
    {o : Ended LockedLifecycleDataset} {d : LockedLifecycleDataset}
    (h : LifecycleSpec honours id target env g o) (hd : o.result = .ok d)
    (ht : t.Moves g.db id target.status) :
    (o.writes.foldl Store.apply g.db).datasetVersions = g.db.datasetVersions
      ∨ ∃ v v', MovesVersion t v v' g.db (o.writes.foldl Store.apply g.db) := by
  rcases h.ends with ⟨v, hv, hends⟩ | ⟨he, -⟩
  swap
  · rw [hd] at he
    cases he
  have hid : v.id = id := Table.get?_key hv
  rw [hd] at hends
  generalize o.writes = ws at hends ⊢
  cases hends with
  | holds hstatus => exact .inl rfl
  | moves hsource =>
      have hstep : VersionStep v (target.columns env.now v) := ⟨_, .lifecycle v target hsource⟩
      obtain ⟨h₁, h₂, h₃, -⟩ := hstep.columns
      refine .inr ⟨v, target.columns env.now v, hid.symm ▸ hv, hstep.status, ?_, ⟨h₁, h₂, h₃⟩, rfl⟩
      rw [hid]
      cases target <;> exact ht

/-- A first Run that succeeds leaves the versions alone or moves one to `BUILDING`. -/
theorem Reachable.prepare_moves (h : Reachable honours st) {i : Nat} {jobId : Uuid}
    {p : PreparedCalculationRun} {ws : List Write}
    (hc : Commits i (.prepareCalculationJobRun jobId) p ws st st')
    (hs : (machine honours).Step st st') :
    st'.shared.db.datasetVersions = st.shared.db.datasetVersions
      ∨ ∃ v v', MovesVersion (.prepareCalculationJobRun jobId) v v' st.shared.db st'.shared.db := by
  obtain ⟨req, log, k, a, hi, hr, rfl, hst⟩ := hc
  obtain ⟨g₀, last, -, -, hexec⟩ := h.safe.executed hi (r := .ok p) hr
  obtain ⟨last', hspec⟩ := h.commits hi hr
  have hone := Discipline.exec_atMost hexec atMost_prepareCalculationJobRun
  have hsealed : Sealed none a.writes := seals_prepareCalculationJobRun _ _ _ _ .nil _ hexec p rfl
  have hinsert : ∀ v, .insertDatasetVersion v ∉ a.writes := by
    intro v hv
    cases hspec.footprint _ hv
  have hdb : st'.shared.db = a.writes.foldl Store.apply st.shared.db := by rw [hst]
  rw [hdb]
  rcases Store.foldl_moves (s := st.shared.db) hinsert hone with hsame | ⟨v', hv', hput⟩
  · exact .inl hsame
  -- The row that is replaced is there, and the update is a step of it.
  cases hv : st.shared.db.datasetVersions.get? v'.id with
  | none =>
      refine .inl (hput.trans (Table.ext ?_))
      refine (List.map_congr_left fun r hr => ?_).trans (List.map_id _)
      exact if_neg (Table.get?_eq_none.mp hv r hr)
  | some v =>
      have hid : v.id = v'.id := Table.get?_key hv
      obtain ⟨now, hsingle⟩ := h.single hs
      obtain ⟨w, hw, hmoved⟩ := hsingle.versions _ v hv
      rw [hdb, hput, Table.get?_put, if_pos rfl, hv] at hw
      cases hw
      rcases hmoved with hsame | hstep
      · have hsame : v' = v := hsame
        subst hsame
        exact .inl (hput.trans (Table.put_self hv))
      · obtain ⟨h₁, h₂, h₃, -⟩ := hstep.step.columns
        have hbuilding : v'.status = .building := hsealed.building v' hv'
        refine .inr ⟨v, v', hid.symm ▸ hv, hstep.step.status, ?_, ⟨h₁, h₂, h₃⟩, hput⟩
        -- The version is that of the job.
        obtain ⟨fl, hprepare⟩ := hspec.ensures
        obtain ⟨⟨j', hj', hversion⟩, -⟩ := (hprepare.durable p rfl).1
        have hjob : p.durable.jobId = jobId := (hprepare.durable p rfl).2
        have hj'id : j'.id = jobId := (Table.get?_key hj').trans hjob
        have hv'id : j'.outputDatasetVersionId = v'.id :=
          hversion.trans (hprepare.moves p rfl v' hv').symm
        obtain ⟨j, hj, hsteps⟩ := (hprepare.commit p rfl).change.grows.jobsOf_back
          (Table.row_ne_none hv) (Store.mem_jobsOf.mpr ⟨(hj'id.trans hjob.symm) ▸ hj', hv'id⟩)
        obtain ⟨hrow, hjv⟩ := Store.mem_jobsOf.mp hj
        rw [hbuilding, hid, ← hjv, ← hj'id, (job_columns hsteps).1]
        exact .prepare j hrow

/-- A transaction that commits adds a version, moves one, or leaves all of them alone. -/
theorem Reachable.moves_of_commits (h : Reachable honours st) (hs : (machine honours).Step st st')
    {i : Nat} {t : Transaction} {r : t.Result} {ws : List Write} (hc : Commits i t r ws st st') :
    (∃ input, t = .createDatasetVersion input)
      ∨ st'.shared.db.datasetVersions = st.shared.db.datasetVersions
      ∨ ∃ v v', MovesVersion t v v' st.shared.db st'.shared.db := by
  have hcommits := hc
  obtain ⟨req, log, k, a, hi, hr, rfl, hst⟩ := hc
  obtain ⟨last, hspec⟩ := h.commits hi hr
  have hdb : st'.shared.db = a.writes.foldl Store.apply st.shared.db := by rw [hst]
  have hensures := hspec.ensures
  have hkept : ∀ {t : Transaction}, (∀ v, t.mayWrite (.insertDatasetVersion v) = false
      ∧ t.mayWrite (.putDatasetVersion v) = false) → (∀ u ∈ a.writes, t.mayWrite u = true) →
      st'.shared.db.datasetVersions = st.shared.db.datasetVersions := fun ht hws =>
    (congrArg _ hdb).trans (Store.foldl_datasetVersions ht hws)
  cases t with
  | createDatasetVersion input => exact .inl ⟨input, rfl⟩
  | prepareCalculationJobRun jobId => exact .inr (h.prepare_moves hcommits hs)
  | submitDatasetValidation id =>
      have hmoves := LifecycleSpec.moves hensures rfl (.submit id)
      exact .inr (hdb ▸ hmoves)
  | decideValidatedDataset id seriesId decision =>
      have htarget : (Transaction.decideValidatedDataset id seriesId decision).Moves st.shared.db id
          decision.target.status := by
        cases decision with
        | published => exact .publish id seriesId
        | rejected => exact .reject id seriesId
      have hmoves := LifecycleSpec.moves hensures rfl htarget
      exact .inr (hdb ▸ hmoves)
  | abandonDatasetVersion id seriesId =>
      have hmoves := LifecycleSpec.moves hensures rfl (.abandon id seriesId)
      exact .inr (hdb ▸ hmoves)
  | _ => exact .inr (.inl (hkept (fun _ => ⟨rfl, rfl⟩) hspec.footprint))

/-- **A step adds a version, moves one, or leaves all of them alone.** -/
theorem Reachable.moves (h : Reachable honours st) (hs : (machine honours).Step st st') :
    (∃ i input r ws, Commits i (.createDatasetVersion input) r ws st st')
      ∨ st'.shared.db.datasetVersions = st.shared.db.datasetVersions
      ∨ ∃ i t r ws v v', Commits i t r ws st st' ∧ MovesVersion t v v' st.shared.db st'.shared.db := by
  rcases step_db hs with ⟨i, t, r, ws, hc⟩ | ⟨locks, hc⟩ | hst
  · rcases h.moves_of_commits hs hc with ⟨input, rfl⟩ | hsame | ⟨v, v', hmoves⟩
    · exact .inl ⟨i, input, r, ws, hc⟩
    · exact .inr (.inl hsame)
    · exact .inr (.inr ⟨i, t, r, ws, v, v', hc, hmoves⟩)
  · exact .inr (.inl hc.datasetVersions)
  · exact .inr (.inl (by rw [hst]))

end CostEngine
