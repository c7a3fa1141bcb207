import CostEngine.Store.Ownership

/-! # `demo-session-cleanup.repository.ts` -/

namespace CostEngine

open Relational (Table)

namespace Store

variable (s : Store)

/-! ## The statements -/

/-- A snapshot of another company has a row that refers to a series of the company. -/
def foreignReference (company : String) : Bool :=
  s.snapshotDependencies.rows.any fun d =>
    s.seriesCompany d.upstreamDatasetSeriesId = some company
      ∧ (s.snapshotCompany d.snapshotId).any (· ≠ company)

def seriesIds (company : String) : List Uuid :=
  (s.datasetSeries.select fun r => r.identity.companyCode = company).map (·.id)

def versionIds (series : List Uuid) : List Uuid :=
  (s.datasetVersions.select fun v => v.datasetSeriesId ∈ series).map (·.id)

def jobIds (versions : List Uuid) : List Uuid :=
  (s.calculationJobs.select fun j => j.outputDatasetVersionId ∈ versions).map (·.id)

def buildSnapshotIds (versions : List Uuid) : List Uuid :=
  (s.datasetBuildSnapshots.select fun b => b.datasetVersionId ∈ versions).map (·.id)

/-- The deletions of `deleteOwnedDemoData`, with the ids that its selections have found. -/
def deleteOwned (series versions jobs : List Uuid) : Store :=
  { s with
    snapshotDependencies := s.snapshotDependencies.delete fun d =>
      d.snapshotId ∈ s.buildSnapshotIds versions
    executionAttempts := s.executionAttempts.delete fun a => a.calculationJobId ∈ jobs
    datasetBuildSnapshots := s.datasetBuildSnapshots.delete fun b => b.datasetVersionId ∈ versions
    calculationJobs := s.calculationJobs.delete fun j => j.id ∈ jobs
    datasetVersions := s.datasetVersions.delete fun v => v.id ∈ versions
    datasetSeries := s.datasetSeries.delete fun r => r.id ∈ series }

/-! ## The ids are those of the company's rows -/

variable {s} {s' : Store} {company other : String} {id : Uuid}

theorem mem_seriesIds : id ∈ s.seriesIds company ↔ s.seriesCompany id = some company := by
  rw [seriesIds, List.mem_map, seriesCompany, Option.map_eq_some_iff]
  constructor
  · rintro ⟨r, hr, rfl⟩
    obtain ⟨hmem, hcompany⟩ := Table.mem_select.mp hr
    exact ⟨r, Table.get?_of_mem hmem, of_decide_eq_true hcompany⟩
  · rintro ⟨r, hr, hcompany⟩
    exact ⟨r, Table.mem_select.mpr ⟨Table.get?_mem hr, decide_eq_true hcompany⟩, Table.get?_key hr⟩

theorem mem_versionIds : id ∈ s.versionIds (s.seriesIds company) ↔
    s.versionCompany id = some company := by
  rw [versionIds, List.mem_map, versionCompany, Option.bind_eq_some_iff]
  constructor
  · rintro ⟨v, hv, rfl⟩
    obtain ⟨hmem, hseries⟩ := Table.mem_select.mp hv
    exact ⟨v, Table.get?_of_mem hmem, mem_seriesIds.mp (of_decide_eq_true hseries)⟩
  · rintro ⟨v, hv, hseries⟩
    exact ⟨v, Table.mem_select.mpr ⟨Table.get?_mem hv, decide_eq_true (mem_seriesIds.mpr hseries)⟩,
      Table.get?_key hv⟩

theorem mem_jobIds : id ∈ s.jobIds (s.versionIds (s.seriesIds company)) ↔
    s.jobCompany id = some company := by
  rw [jobIds, List.mem_map, jobCompany, Option.bind_eq_some_iff]
  constructor
  · rintro ⟨j, hj, rfl⟩
    obtain ⟨hmem, hversion⟩ := Table.mem_select.mp hj
    exact ⟨j, Table.get?_of_mem hmem, mem_versionIds.mp (of_decide_eq_true hversion)⟩
  · rintro ⟨j, hj, hversion⟩
    exact ⟨j, Table.mem_select.mpr ⟨Table.get?_mem hj, decide_eq_true (mem_versionIds.mpr hversion)⟩,
      Table.get?_key hj⟩

theorem mem_buildSnapshotIds : id ∈ s.buildSnapshotIds (s.versionIds (s.seriesIds company)) ↔
    s.snapshotCompany id = some company := by
  rw [buildSnapshotIds, List.mem_map, snapshotCompany, Option.bind_eq_some_iff]
  constructor
  · rintro ⟨b, hb, rfl⟩
    obtain ⟨hmem, hversion⟩ := Table.mem_select.mp hb
    exact ⟨b, Table.get?_of_mem hmem, mem_versionIds.mp (of_decide_eq_true hversion)⟩
  · rintro ⟨b, hb, hversion⟩
    exact ⟨b, Table.mem_select.mpr ⟨Table.get?_mem hb, decide_eq_true (mem_versionIds.mpr hversion)⟩,
      Table.get?_key hb⟩

theorem seriesIds_eq : s.seriesIds company = (s.ownedBy company).series.map (·.id) := rfl

theorem versionIds_eq : s.versionIds (s.seriesIds company)
    = (s.ownedBy company).versions.map (·.id) := by
  simp only [versionIds, ownedBy, mem_seriesIds]

theorem jobIds_eq : s.jobIds (s.versionIds (s.seriesIds company))
    = (s.ownedBy company).jobs.map (·.id) := by
  simp only [jobIds, ownedBy, mem_versionIds]

/-! ## What is deleted -/

/-- Deleting the rows of one company leaves those of the others. -/
theorem sameOwned_deleteOwned (hne : other ≠ company) : SameOwned s
    (s.deleteOwned (s.seriesIds company) (s.versionIds (s.seriesIds company))
      (s.jobIds (s.versionIds (s.seriesIds company)))) other where
  series := .delete fun r hr hp => by
    have hcompany := mem_seriesIds.mp (of_decide_eq_true hp)
    rw [seriesCompany, Table.get?_of_mem hr] at hcompany
    exact ne_some_of_eq hcompany hne
  versions := .delete fun v hv hp => by
    have hcompany := mem_versionIds.mp (of_decide_eq_true hp)
    rw [versionCompany, Table.get?_of_mem hv] at hcompany
    exact ne_some_of_eq hcompany hne
  jobs := .delete fun j hj hp => by
    have hcompany := mem_jobIds.mp (of_decide_eq_true hp)
    rw [jobCompany, Table.get?_of_mem hj] at hcompany
    exact ne_some_of_eq hcompany hne
  attempts := .delete fun a _ hp => ne_some_of_eq (mem_jobIds.mp (of_decide_eq_true hp)) hne
  snapshots := .delete fun b _ hp => ne_some_of_eq (mem_versionIds.mp (of_decide_eq_true hp)) hne
  dependencies := .delete fun d _ hp =>
    ne_some_of_eq (mem_buildSnapshotIds.mp (of_decide_eq_true hp)) hne

/-- Nothing is left of the company. -/
theorem seriesIds_deleteOwned {versions jobs : List Uuid} :
    (s.deleteOwned (s.seriesIds company) versions jobs).seriesIds company = [] := by
  refine List.eq_nil_iff_forall_not_mem.mpr fun id hid => ?_
  have hcompany := mem_seriesIds.mp hid
  rw [seriesCompany, deleteOwned, Table.get?_delete, Option.map_eq_some_iff] at hcompany
  obtain ⟨r, hr, hcompany⟩ := hcompany
  obtain ⟨hr, hnot⟩ := Option.filter_eq_some_iff.mp hr
  have hmem : r.id ∈ s.seriesIds company := by
    rw [mem_seriesIds, seriesCompany, Table.get?_of_mem (Table.get?_mem hr)]
    exact congrArg some hcompany
  simp [hmem] at hnot

/-- Without a series there is no row at all. -/
theorem ownedBy_of_seriesIds (h : s.seriesIds company = []) :
    s.ownedBy company = ⟨[], [], [], [], [], []⟩ := by
  have hseries : ∀ id, s.seriesCompany id ≠ some company := by
    intro id hid
    have hmem := mem_seriesIds.mpr hid
    rw [h] at hmem
    cases hmem
  have hversion : ∀ id, s.versionCompany id ≠ some company := by
    intro id hid
    obtain ⟨v, -, hv⟩ := Option.bind_eq_some_iff.mp hid
    exact hseries _ hv
  have hjob : ∀ id, s.jobCompany id ≠ some company := by
    intro id hid
    obtain ⟨j, -, hj⟩ := Option.bind_eq_some_iff.mp hid
    exact hversion _ hj
  have hsnapshot : ∀ id, s.snapshotCompany id ≠ some company := by
    intro id hid
    obtain ⟨b, -, hb⟩ := Option.bind_eq_some_iff.mp hid
    exact hversion _ hb
  have hnil : s.datasetSeries.select (fun r => r.identity.companyCode = company) = [] :=
    List.map_eq_nil_iff.mp h
  have hnone : ∀ {α κ : Type} {key : α → κ} (t : Table α κ key) {f : α → Option String},
      (∀ a, f a ≠ some company) → t.select (f · = some company) = [] :=
    fun t f hf => List.filter_eq_nil_iff.mpr fun a _ => by simp [hf a]
  rw [ownedBy, hnil, hnone _ fun _ => hseries _, hnone _ fun _ => hversion _, hnone _ fun _ => hjob _,
    hnone _ fun _ => hversion _, hnone _ fun _ => hsnapshot _]

end Store

end CostEngine
