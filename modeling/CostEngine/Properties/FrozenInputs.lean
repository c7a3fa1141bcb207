import CostEngine.System.Scripts

/-! # Every dispatch uses the frozen inputs

The upstream list of a command is put together again at every dispatch, from the live rows of
the definition and of the snapshot. Whatever was published in between, it comes out as it
was frozen at first Run. -/

namespace CostEngine

open Relational (Table)
open Concurrency (play)

/-- What a command carries: the single snapshot of its version, the definition of its job, and
for each required domain the version that the snapshot row names. -/
structure Store.FrozenInputs (s : Store) (c : DispatchCalculationCommand) : Prop where
  job : ∃ j, s.calculationJobs.get? c.jobId = some j
    ∧ j.outputDatasetVersionId = c.datasetVersionId
    ∧ j.resolvedDependencyDefinitionVersionId = some c.resolvedDependencyDefinitionVersionId
  snapshot : ∃ b, s.snapshotsOf c.datasetVersionId = [b] ∧ b.id = c.datasetBuildSnapshotId
  domains : c.upstreamDatasetVersions.map (·.identity.domain)
    = s.requiredDomainsOf c.resolvedDependencyDefinitionVersionId
  nodup : (c.upstreamDatasetVersions.map (·.identity.domain)).Nodup
  rows : ∀ f ∈ c.upstreamDatasetVersions, ∃ row ∈ s.dependenciesOf c.datasetBuildSnapshotId,
    row.upstreamDatasetSeriesId = f.datasetSeriesId
      ∧ row.upstreamDatasetVersionId = f.datasetVersionId
      ∧ ∃ r v, s.datasetSeries.get? f.datasetSeriesId = some r ∧ r.identity = f.identity
        ∧ s.datasetVersions.get? f.datasetVersionId = some v ∧ v.version = f.version

/-- The commands carry the same inputs. -/
structure DispatchCalculationCommand.SameInputs (c c' : DispatchCalculationCommand) : Prop where
  version : c.datasetVersionId = c'.datasetVersionId
  snapshot : c.datasetBuildSnapshotId = c'.datasetBuildSnapshotId
  definition : c.resolvedDependencyDefinitionVersionId = c'.resolvedDependencyDefinitionVersionId
  upstream : c.upstreamDatasetVersions = c'.upstreamDatasetVersions

/-! ## One command -/

namespace Store

variable {s : Store} {c c' : DispatchCalculationCommand}

theorem requiredDomainsOf_nodup (definitionVersionId : Uuid) :
    (s.requiredDomainsOf definitionVersionId).Nodup := by
  unfold requiredDomainsOf
  rw [(orderBy_perm _ _).nodup_iff]
  unfold definitionRowsOf Table.select
  refine List.Nodup.map_on ?_ (s.definitionDependencies.nodup.of_map.filter _)
  intro d hd d' hd' hdomain
  have hnodup := s.definitionDependencies.nodup
  obtain ⟨hrow, hdef⟩ := List.mem_filter.mp hd
  obtain ⟨hrow', hdef'⟩ := List.mem_filter.mp hd'
  refine List.inj_on_of_nodup_map hnodup hrow hrow' ?_
  rw [of_decide_eq_true hdef, of_decide_eq_true hdef', hdomain]

theorem mem_frozenDependencies {snapshotId : Uuid} {f : FrozenUpstreamDatasetVersion}
    (hf : f ∈ s.frozenDependencies snapshotId) : ∃ row ∈ s.dependenciesOf snapshotId,
      row.upstreamDatasetSeriesId = f.datasetSeriesId
        ∧ row.upstreamDatasetVersionId = f.datasetVersionId
        ∧ ∃ r v, s.datasetSeries.get? f.datasetSeriesId = some r ∧ r.identity = f.identity
          ∧ s.datasetVersions.get? f.datasetVersionId = some v ∧ v.version = f.version := by
  obtain ⟨row, hrow, h⟩ := List.mem_filterMap.mp hf
  simp only [Option.bind_eq_bind, Option.bind_eq_some_iff] at h
  obtain ⟨r, hr, v, hv, h⟩ := h
  split at h
  · cases h
    exact ⟨row, hrow, rfl, rfl, r, v, hr, rfl, hv, rfl⟩
  · cases h

/-- The upstream versions are those of the required domains, the only candidates there. -/
theorem Dispatched.candidates (h : s.Dispatched c) : List.Forall₂
    (fun domain f => domain = f.identity.domain ∧ (s.frozenDependencies
      c.datasetBuildSnapshotId).filter (·.identity.domain = f.identity.domain) = [f])
    (s.requiredDomainsOf c.resolvedDependencyDefinitionVersionId) c.upstreamDatasetVersions := by
  refine h.upstream.imp fun domain f hone => ?_
  have hmem : f ∈ (s.frozenDependencies c.datasetBuildSnapshotId).filter
      (·.identity.domain = domain) := by
    rw [hone]
    exact List.mem_singleton_self f
  have hdomain : f.identity.domain = domain := of_decide_eq_true (List.mem_filter.mp hmem).2
  rw [hdomain]
  exact ⟨rfl, hone⟩

theorem Dispatched.domains (h : s.Dispatched c) :
    c.upstreamDatasetVersions.map (·.identity.domain)
      = s.requiredDomainsOf c.resolvedDependencyDefinitionVersionId := by
  have heq := h.candidates.imp fun _ _ hc => hc.1
  rw [← List.forall₂_map_right_iff, List.forall₂_eq_eq_eq] at heq
  exact heq.symm

theorem Dispatched.candidate (h : s.Dispatched c) {f : FrozenUpstreamDatasetVersion}
    (hf : f ∈ c.upstreamDatasetVersions) :
    (s.frozenDependencies c.datasetBuildSnapshotId).filter
      (·.identity.domain = f.identity.domain) = [f] := by
  obtain ⟨n, hn, rfl⟩ := List.getElem_of_mem hf
  have hlen := h.candidates.length_eq
  exact (h.candidates.get (hlen.symm ▸ hn) hn).2

theorem Dispatched.frozenInputs (h : s.Dispatched c) : s.FrozenInputs c where
  job := by
    obtain ⟨j, -, hj, hv, -, hd, -⟩ := h.job
    exact ⟨j, hj, hv, hd⟩
  snapshot := h.snapshot
  domains := h.domains
  nodup := h.domains ▸ requiredDomainsOf_nodup _
  rows f hf := by
    have hmem : f ∈ (s.frozenDependencies c.datasetBuildSnapshotId).filter
        (·.identity.domain = f.identity.domain) := by
      rw [h.candidate hf]
      exact List.mem_singleton_self f
    exact mem_frozenDependencies (List.mem_filter.mp hmem).1

/-! ## Two commands -/

theorem Dispatched.same_snapshot (h : s.Dispatched c) (h' : s.Dispatched c')
    (hv : c.datasetVersionId = c'.datasetVersionId) :
    c.datasetBuildSnapshotId = c'.datasetBuildSnapshotId := by
  obtain ⟨b, hb, hid⟩ := h.snapshot
  obtain ⟨b', hb', hid'⟩ := h'.snapshot
  rw [hv, hb'] at hb
  cases hb
  exact hid.symm.trans hid'

/-- The jobs of a version use one version of a domain. -/
theorem Dispatched.same_upstream (h : s.Dispatched c) (h' : s.Dispatched c')
    (hv : c.datasetVersionId = c'.datasetVersionId) {f f' : FrozenUpstreamDatasetVersion}
    (hf : f ∈ c.upstreamDatasetVersions) (hf' : f' ∈ c'.upstreamDatasetVersions)
    (hdomain : f.identity.domain = f'.identity.domain) : f = f' := by
  have hone := h.candidate hf
  have hone' := h'.candidate hf'
  rw [h.same_snapshot h' hv, hdomain, hone'] at hone
  cases hone
  rfl

theorem Dispatched.sameInputs (h : s.Dispatched c) (h' : s.Dispatched c')
    (hjob : c.jobId = c'.jobId) : c.SameInputs c' := by
  obtain ⟨j, -, hj, hv, -, hd, -⟩ := h.job
  obtain ⟨j', -, hj', hv', -, hd', -⟩ := h'.job
  rw [hjob, hj'] at hj
  cases hj
  have hversion := hv.symm.trans hv'
  have hdefinition := Option.some.inj (hd.symm.trans hd')
  refine ⟨hversion, h.same_snapshot h' hversion, hdefinition, ?_⟩
  have hup := h.upstream
  rw [h.same_snapshot h' hversion, hdefinition] at hup
  refine List.right_unique_forall₂' (fun domain f f' hf hf' => ?_) hup h'.upstream
  rw [hf] at hf'
  cases hf'
  rfl

end Store

/-! ## The error of the selection -/

theorem head_append {s t : String} {c : Char} (h : s.toList.head? = some c) :
    (s ++ t).toList.head? = some c := by
  rw [String.toList_append, List.head?_append, h]
  rfl

theorem DurableRunAttempt.notBuilding_head (d : DurableRunAttempt) (status : DatasetVersionStatus) :
    (d.notBuilding status).toList.head? = some 'A' := by
  unfold notBuilding
  repeat' apply head_append
  decide

theorem selectRelevantFrozenDependencies_error {jobId snapshotId : Uuid}
    {frozen : List FrozenUpstreamDatasetVersion} {domains : List String} {e : ServiceError}
    (h : selectRelevantFrozenDependencies jobId snapshotId frozen domains = .error e) :
    ∃ message, e = .calculationStateInvariant message ∧ message.toList.head? = some 'F' := by
  induction domains with
  | nil => cases h
  | cons domain domains ih =>
      unfold selectRelevantFrozenDependencies at h
      split at h
      · cases hr : selectRelevantFrozenDependencies jobId snapshotId frozen domains with
        | ok rest => rw [hr] at h; cases h
        | error e' => rw [hr] at h; cases h; exact ih hr
      · cases h
        refine ⟨_, rfl, ?_⟩
        repeat' apply head_append
        decide

/-! ## In every reachable state -/

variable {honours : Prop} {st st' : System}

/-- `beginDispatch` does not fail where it selects the dependencies. -/
theorem Reachable.selects (h : Reachable honours st) {i : Nat} {d : DurableRunAttempt}
    {e : ServiceError} {a} (he : st.Ending i (.beginDispatch d) (.error e) a)
    (jobId snapshotId : Uuid) (frozen : List FrozenUpstreamDatasetVersion)
    (domains : List String) :
    selectRelevantFrozenDependencies jobId snapshotId frozen domains ≠ .error e := by
  intro hselect
  obtain ⟨message, rfl, hhead⟩ := selectRelevantFrozenDependencies_error hselect
  obtain ⟨last, hspec⟩ := h.ends he
  obtain ⟨g, rest, -, hends⟩ := BeginDispatchSpec.ends hspec.ensures
  generalize hr : (Except.error (ServiceError.calculationStateInvariant message) :
    Except ServiceError BeginDispatchResult) = r at hends
  cases hends with
  | notBuilding status hnot =>
      cases hr
      rw [d.notBuilding_head status] at hhead
      cases hhead
  | _ => cases hr

/-- **Every dispatch uses the frozen inputs.** The commands of one job carry the same inputs,
the jobs of one version agree on the version of a domain, and the rows of a snapshot never
change. -/
theorem dispatches_frozen_inputs (h : Reachable honours st) :
    (∀ i d e a, st.Ending i (.beginDispatch d) (.error e) a →
      ∀ jobId snapshotId frozen domains,
        selectRelevantFrozenDependencies jobId snapshotId frozen domains ≠ .error e)
    ∧ (∀ c ∈ st.shared.world.sent, st.shared.db.FrozenInputs c)
    ∧ (∀ c ∈ st.shared.world.sent, ∀ c' ∈ st.shared.world.sent,
        c.jobId = c'.jobId → c.SameInputs c')
    ∧ (∀ c ∈ st.shared.world.sent, ∀ c' ∈ st.shared.world.sent,
        c.datasetVersionId = c'.datasetVersionId → ∀ f ∈ c.upstreamDatasetVersions,
        ∀ f' ∈ c'.upstreamDatasetVersions, f.identity.domain = f'.identity.domain → f = f')
    ∧ ∀ st', (machine honours).Run st st' → ∀ id b,
        st.shared.db.datasetBuildSnapshots.get? id = some b →
        st'.shared.db.dependenciesOf id = st.shared.db.dependenciesOf id := by
  have hsent := h.invariant.sent
  refine ⟨fun i d e a he => h.selects he, fun c hc => (hsent c hc).frozenInputs,
    fun c hc c' hc' => (hsent c hc).sameInputs (hsent c' hc'),
    fun c hc c' hc' hv f hf f' hf' => (hsent c hc).same_upstream (hsent c' hc') hv hf hf', ?_⟩
  intro st' hr id b hb
  exact (h.grows hr).db.dependenciesOf id (Table.row_ne_none hb)

theorem dispatches_frozen_inputs_chained : ∃ S, play (machine False) (Script.chained False)
    SystemStage.chained = some S
      ∧ (S.shared.world.sent.map fun c => c.upstreamDatasetVersions.map (·.datasetVersionId))
        = [[], ["v1"]]
      ∧ ∀ c ∈ S.shared.world.sent, S.shared.db.FrozenInputs c := by
  obtain ⟨S, hS, hp⟩ := exists_of_play (p := fun S => decide ((S.shared.world.sent.map fun c =>
      c.upstreamDatasetVersions.map (·.datasetVersionId)) = [[], ["v1"]]))
    (show (play (machine False) (Script.chained False) SystemStage.chained).any _ = true by
      decide +kernel)
  exact ⟨S, hS, of_decide_eq_true hp,
    (dispatches_frozen_inputs (.of_play SystemStage.chained_initial hS)).2.1⟩

end CostEngine
