import CostEngine.Transaction.Creation
import CostEngine.Transaction.LockOrder

/-! # The locks of a creation

A creation locks the series before the calculation types, whose keys its jobs share, while a
first Run begins with the types. So the types of a domain rank above its series, and the
series of a first Run are those of other domains. -/

namespace CostEngine

open Relational (Table)
open Concurrency (Txn Discipline)

variable {honours : Prop} {level : String → ℕ} {g : Moment} {env : TxEnv} {L : List RowLock}
variable {ws : List Write}

/-! ## Creation -/

/-- The entry of the identity, then a new row. -/
theorem locks_insertDatasetSeriesIfAbsent {n : ℕ} {identity : SeriesIdentity} {number : Nat}
    {post : List RowLock → List Write → Unit → Prop}
    (hpost : ∀ L' ws', AllBelow level g.db env (lockRank 1 0 []) L' →
      (ws' = [] ∨ ws' = [.insertDatasetSeries ⟨env.uuid n, identity, number⟩]) → post L' ws' ()) :
    Tx.LocksInOrder honours level g env [] []
      (insertDatasetSeriesIfAbsent ⟨env.uuid n, identity, number⟩) post := by
  have hrank : g.db.lockRank? level (.seriesIdentity identity) = some (lockRank 0 0 []) := rfl
  have hentry : AllBelow level g.db env (lockRank 1 0 [])
      [.forUpdate (.seriesIdentity identity)] :=
    .cons (RowLock.below_of_rank hrank (lockRank_lt_kind (by decide))) allBelow_nil
  refine Discipline.locks_bind (Discipline.locks_select fun g₁ _ _ => ?_)
  split
  · exact hpost _ _ allBelow_nil (.inl rfl)
  · refine Discipline.locks_bind (Discipline.locks_lock
      (.next (allBelow_nil.next hrank) (by simp)) ?_)
    refine Discipline.locks_bind (Discipline.locks_select fun g₂ _ _ => ?_)
    split
    · exact hpost _ _ hentry (.inl rfl)
    · exact Discipline.locks_insertRow (.drawn ⟨n, rfl⟩)
        (hpost _ _ (.cons (.inl ⟨n, rfl⟩) hentry) (.inr rfl))

/-- The series that is found is the new one, or one that was there. -/
theorem locks_findOrCreateAndLockDatasetSeries {n : ℕ} {identity : SeriesIdentity}
    {post : List RowLock → List Write → LockedDatasetSeries → Prop}
    (hpost : ∀ L' ws' x, .forUpdate (.datasetSeries x.id) ∈ L' →
      (∀ k, AllBelow level g.db env (lockRank 1 (3 * level identity.domain + 1) k) L') →
      post L' ws' x) :
    Tx.LocksInOrder honours level g env [] []
      (findOrCreateAndLockDatasetSeries identity (env.uuid n)) post := by
  refine Discipline.locks_bind (locks_insertDatasetSeriesIfAbsent fun L₁ ws₁ hL₁ hws₁ => ?_)
  refine Discipline.locks_bind (Discipline.locks_select fun g₁ _ hl₁ => ?_)
  split
  · exact Discipline.locks_throw
  · rename_i found hfound
    obtain ⟨hrow, hidentity⟩ := seriesWith?_eq_some hfound
    have hcases : (Row.datasetSeries found.id).Drawn env ∨
        g.db.seriesDomain? found.id = some identity.domain := by
      have hold : g₁.db.datasetSeries.get? found.id = some found →
          g.db.seriesDomain? found.id = some identity.domain := fun h =>
        hidentity ▸ hl₁.le.db.seriesDomain? (Store.seriesDomain?_of_row h)
      rcases hws₁ with rfl | rfl
      · exact .inr (hold hrow)
      · rcases Table.of_get?_insert hrow with h | rfl
        · exact .inr (hold h)
        · exact .inl ⟨n, rfl⟩
    have hbelow : ∀ k, (.forUpdate (.datasetSeries found.id) : RowLock).Below level g.db env
        (lockRank 1 (3 * level identity.domain + 1) k) := fun k =>
      hcases.imp_right fun h =>
        .inr ⟨_, Store.lockRank?_series level h, lockRank_lt_place (by omega)⟩
    have hfollows : LockFollows level g.db env L₁ (.forUpdate (.datasetSeries found.id)) := by
      rcases hcases with h | h
      · exact .drawn h
      · exact .next ((hL₁.mono (lockRank_le_place (Nat.zero_le _))).next
          (Store.lockRank?_series level h)) (by simp)
    refine Discipline.locks_bind (Discipline.locks_lock hfollows ?_)
    refine Discipline.locks_bind (Discipline.locks_select fun g₂ _ _ => ?_)
    split
    · exact Discipline.locks_throw
    · rename_i row hrow'
      have hid : row.id = found.id := Table.get?_key hrow'
      refine hpost _ _ _ (hid ▸ List.mem_cons_self) fun k => .cons (hbelow k) ?_
      exact hL₁.mono (lockRank_lt_place (Nat.succ_pos _)).le

/-- A new job shares the keys of its version, which is new, and of its type; the types come in the
order of their ranks. -/
theorem locks_insertPendingCalculationJobs {n : ℕ} (jobs : List CalculationJobInsert)
    {post : List RowLock → List Write → List CreatedCalculationJob → Prop}
    (hnew : ∀ job ∈ jobs, ∃ k, job.id = env.uuid k)
    (htypes : ∀ job ∈ jobs, ∃ r,
      g.db.lockRank? level (.calculationType job.calculationTypeId) = some r
        ∧ AllBelow level g.db env r L)
    (hsorted : (jobs.map (·.calculationTypeId)).Pairwise fun id id' => ∀ r r',
      g.db.lockRank? level (.calculationType id) = some r →
      g.db.lockRank? level (.calculationType id') = some r' → r < r')
    (hpost : ∀ L' ws' x, post L' ws' x) :
    Tx.LocksInOrder honours level g env L ws
      (insertPendingCalculationJobs env (env.uuid n) jobs) post := by
  induction jobs generalizing L ws post with
  | nil => exact hpost _ _ _
  | cons job jobs ih =>
      rw [List.map_cons, List.pairwise_cons] at hsorted
      obtain ⟨k, hk⟩ := hnew job List.mem_cons_self
      obtain ⟨r, hr, hbelow⟩ := htypes job List.mem_cons_self
      have hjob : (.forUpdate (.calculationJob job.id) : RowLock).row.Drawn env := ⟨k, hk⟩
      have hversion : (.keyShare (.datasetVersion (env.uuid n)) : RowLock).row.Drawn env := ⟨n, rfl⟩
      refine Discipline.locks_bind (Discipline.locks_insertRow (.drawn hjob) ?_)
      refine Discipline.locks_bind (Discipline.locks_lock (.drawn hversion) ?_)
      refine Discipline.locks_bind (Discipline.locks_lock (.next (AllBelow.next
        (.cons (.inl hversion) (.cons (.inl hjob) hbelow)) hr) (by simp)) ?_)
      refine Discipline.locks_bind (ih (fun job' h => hnew job' (List.mem_cons_of_mem _ h))
        (fun job' h => ?_) hsorted.2 fun L' ws' created => hpost _ _ _)
      obtain ⟨r', hr', hbelow'⟩ := htypes job' (List.mem_cons_of_mem _ h)
      have hlt := hsorted.1 _ (List.mem_map_of_mem h) r r' hr hr'
      exact ⟨r', hr', .cons (RowLock.below_of_rank hr hlt)
        (.cons (.inl hversion) (.cons (.inl hjob) hbelow'))⟩

/-- The active types of a domain rank in the order they are listed in. -/
theorem activeCalculationTypes_ranked (level : String → ℕ) {s s' : Store} (hg : s.Grows s')
    (domain : String) :
    (∀ ct ∈ s.activeCalculationTypes domain, s'.lockRank? level (.calculationType ct.id)
      = some (lockRank 1 (3 * level domain + 1) [domain, ct.code, ct.id]))
    ∧ ((s.activeCalculationTypes domain).map (·.id)).Pairwise fun id id' => ∀ r r',
      s'.lockRank? level (.calculationType id) = some r →
      s'.lockRank? level (.calculationType id') = some r' → r < r' := by
  have hrank : ∀ ct ∈ s.activeCalculationTypes domain, s'.lockRank? level (.calculationType ct.id)
      = some (lockRank 1 (3 * level domain + 1) [domain, ct.code, ct.id]) := by
    intro ct hct
    obtain ⟨hrow, hdomain, -⟩ := Store.mem_activeCalculationTypes.mp hct
    obtain ⟨ct', hct', hdomain', hcode⟩ := hg.type hrow
    rw [Store.lockRank?_type level hct', hdomain', hdomain, hcode]
  have hsorted : (s.activeCalculationTypes domain).Pairwise
      fun a b => [a.code, a.id] ≤ [b.code, b.id] := pairwise_orderBy _ _
  have hids := s.activeCalculationTypes_nodup domain
  rw [List.Nodup, List.pairwise_map] at hids
  refine ⟨hrank, List.pairwise_map.mpr ((hsorted.and hids).imp_of_mem ?_)⟩
  intro a b ha hb ⟨hle, hne⟩ r r' hr hr'
  obtain rfl := Option.some.inj ((hrank a ha).symm.trans hr)
  obtain rfl := Option.some.inj ((hrank b hb).symm.trans hr')
  -- The ids differ, so the order is strict.
  refine lockRank_lt_key (List.Lex.cons (hle.lt_of_ne fun h => hne ?_))
  simpa using congrArg (·.getLast?) h

theorem view_calculationTypes (s : Store) (ws : List Write) :
    (ws.foldl Store.apply s).calculationTypes = s.calculationTypes := by
  induction ws generalizing s with
  | nil => rfl
  | cons w ws ih =>
      rw [List.foldl_cons, ih]
      cases w <;> rfl

/-- **Creation takes its locks in the order of the levels**: the series, then the types of its
domain. -/
theorem locks_createDatasetVersion {input : SeriesIdentity} :
    Tx.LocksInOrder honours level g env [] [] (createDatasetVersion input env)
      fun _ _ _ => True := by
  refine Discipline.locks_bind (locks_findOrCreateAndLockDatasetSeries
    fun L₁ ws₁ series hheld hL₁ => ?_)
  refine Discipline.locks_bind (Discipline.locks_select fun g₁ _ _ => ?_)
  split
  · exact Discipline.locks_throw
  have hseries : ∀ k, AllBelow level g.db env (lockRank 1 (3 * level input.domain + 1) k)
      (.noKeyUpdate (.datasetSeries series.id) :: L₁) := fun k =>
    .cons (AllBelow.row (hL₁ k) hheld) (hL₁ k)
  refine Discipline.locks_bind (Discipline.locks_bind (Discipline.locks_updateReturning
    Discipline.locks_throw (fun _ _ _ _ _ => .again hheld) Discipline.locks_throw fun row => ?_))
  have hversion : (.forUpdate (.datasetVersion (env.uuid 1)) : RowLock).row.Drawn env := ⟨1, rfl⟩
  refine Discipline.locks_bind (Discipline.locks_bind (Discipline.locks_insertRow (.drawn hversion)
    (Discipline.locks_lock (.again (by simp [hheld])) ?_)))
  refine Discipline.locks_bind (Discipline.locks_select fun g₂ _ hl₂ => ?_)
  split
  · exact Discipline.locks_throw
  have hL : ∀ k, AllBelow level g.db env (lockRank 1 (3 * level input.domain + 1) k)
      (.keyShare (.datasetSeries series.id) :: .forUpdate (.datasetVersion (env.uuid 1))
        :: .noKeyUpdate (.datasetSeries series.id) :: L₁) :=
    fun k => .cons (AllBelow.row (hL₁ k) hheld) (.cons (.inl hversion) (hseries k))
  obtain ⟨hranks, hsorted⟩ := activeCalculationTypes_ranked level hl₂.le.db input.domain
  have hview : ∀ ws, ((machine honours).view g₂.db ws).activeCalculationTypes input.domain
      = g₂.db.activeCalculationTypes input.domain := by
    intro ws
    unfold Store.activeCalculationTypes
    rw [show ((machine honours).view g₂.db ws).calculationTypes = _ from view_calculationTypes _ _]
  rw [hview]
  generalize htypes : (g₂.db.activeCalculationTypes input.domain).map
    (fun ct => ({ id := ct.id, code := ct.code } : ActiveCalculationType)) = types
  have hids : (jobInserts env types).map (·.calculationTypeId)
      = (g₂.db.activeCalculationTypes input.domain).map (·.id) := by
    rw [jobInserts_types, ← htypes, List.map_map]
    rfl
  refine Discipline.locks_bind (locks_insertPendingCalculationJobs (jobInserts env types)
    (fun job hjob => ?_) (fun job hjob => ?_) (hids ▸ hsorted) fun _ _ _ => trivial)
  · obtain ⟨i, hi, rfl⟩ := List.mem_mapIdx.mp hjob
    exact ⟨2 + i, rfl⟩
  · have hmem := List.mem_map_of_mem (f := (·.calculationTypeId)) hjob
    rw [hids] at hmem
    obtain ⟨ct, hct, hid⟩ := List.mem_map.mp hmem
    exact ⟨_, hid ▸ hranks ct hct, hL _⟩

end CostEngine
