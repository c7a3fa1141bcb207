import CostEngine.Transaction.AttemptLocks

/-! # The locks of lifecycle commands

Series, version, then all jobs of the version and all their attempts, one after the other: rows
of the same rank, which are locked only by whoever holds the version. -/

namespace CostEngine

open Relational (Table)
open Concurrency (Txn Discipline)

variable {honours : Prop} {level : String → ℕ} {g : Moment} {env : TxEnv} {L : List RowLock}
variable {ws : List Write}

/-! ## Lifecycle commands -/

/-- The series ranks below every version. -/
theorem locks_lockLifecycleSeries {id : Uuid} {post : List RowLock → List Write → Bool → Prop}
    (hpost : ∀ L' b, AllBelow level g.db env (lockRank 2 0 []) L' → post L' [] b) :
    Tx.LocksInOrder honours level g env [] [] (lockLifecycleSeries id) post := by
  refine Discipline.locks_bind (Discipline.locks_selectForUpdate (hpost _ _ allBelow_nil)
    fun g₁ r _ hl hr => ?_)
  have hdomain : g.db.seriesDomain? id = some r.identity.domain :=
    hl.le.db.seriesDomain? (Store.seriesDomain?_of_row hr)
  have hrank := Store.lockRank?_series level hdomain
  exact ⟨.next (allBelow_nil.next hrank) (by simp), fun g₂ _ _ => hpost _ _
    (.cons (RowLock.below_of_rank hrank (lockRank_lt_kind (by decide))) allBelow_nil)⟩

/-- The version comes after series at most, and before its jobs. -/
theorem locks_lockLifecycleDataset {id : Uuid} (hinv : Invariant honours g)
    (hbelow : AllBelow level g.db env (lockRank 2 0 []) L)
    {post : List RowLock → List Write → Option LockedLifecycleDataset → Prop}
    (hnone : ∀ L', post L' [] none)
    (hsome : ∀ d x, g.db.versionDomain? id = some d → x.datasetVersionId = id →
      AllBelow level g.db env (lockRank 2 (3 * level d + 1) [])
        (.forUpdate (.datasetVersion id) :: L) →
      post (.forUpdate (.datasetVersion id) :: L) [] (some x)) :
    Tx.LocksInOrder honours level g env L [] (lockLifecycleDataset id) post := by
  refine locks_selectVersion hinv (fun d _ => hbelow.mono (lockRank_le_place (Nat.zero_le _))) hnone
    fun d v hd hid => ?_
  refine hsome d _ hd hid (.cons ?_ (hbelow.mono (lockRank_le_place (Nat.zero_le _))))
  exact RowLock.below_of_rank (Store.lockRank?_version level hd) (lockRank_lt_place (by omega))

/-! ### Rows of the version -/

/-- Rows of one rank are locked one after the other under the lock of their version. -/
theorem locks_lockRows {α : Type} {rowOf : Uuid → Row} {find : Uuid → Store → Option α} {v : Uuid}
    {r : LockRank} {ids : List Uuid} {post : List RowLock → List Write → List α → Prop}
    (hheld : .forUpdate (.datasetVersion v) ∈ L)
    (hrows : ∀ id ∈ ids, g.db.lockRank? level (rowOf id) = some r
      ∧ g.db.versionOf? (rowOf id) = some v)
    (hbelow : ∀ m ∈ L, m.BelowIn level g.db env v r)
    (hpost : ∀ L' rows, (∀ m ∈ L', m.BelowIn level g.db env v r) → (∀ m ∈ L, m ∈ L') →
      post L' [] rows) :
    Tx.LocksInOrder honours level g env L [] (lockRows (fun id => .forUpdate (rowOf id)) find ids)
      post := by
  induction ids generalizing L post with
  | nil => exact hpost L [] hbelow fun _ h => h
  | cons id ids ih =>
      obtain ⟨hrank, hof⟩ := hrows id List.mem_cons_self
      refine Discipline.locks_bind (Discipline.locks_lock
        (.next ⟨r, hrank, .inr ⟨v, hof, hheld, hbelow⟩⟩ (by simp)) ?_)
      refine Discipline.locks_bind (Discipline.locks_select fun g₁ _ _ => ?_)
      refine Discipline.locks_bind (ih (List.mem_cons_of_mem _ hheld)
        (fun id' hid' => hrows id' (List.mem_cons_of_mem _ hid'))
        (List.forall_mem_cons.mpr ⟨.inr ⟨hrank, hof⟩, hbelow⟩) fun L' rows hL' hkept => ?_)
      exact hpost L' _ hL' fun m hm => hkept m (List.mem_cons_of_mem _ hm)

/-- The jobs of the version rank below its attempts. -/
theorem locks_lockLifecycleJobs {v : Uuid} {d : String} (hd : g.db.versionDomain? v = some d)
    (hheld : .forUpdate (.datasetVersion v) ∈ L)
    (hbelow : AllBelow level g.db env (lockRank 2 (3 * level d + 1) []) L)
    {post : List RowLock → List Write → List LockedLifecycleJob → Prop}
    (hpost : ∀ L' jobs, AllBelow level g.db env (lockRank 2 (3 * level d + 2) []) L' →
      .forUpdate (.datasetVersion v) ∈ L' → post L' [] jobs) :
    Tx.LocksInOrder honours level g env L [] (lockLifecycleJobs v) post := by
  refine Discipline.locks_bind (Discipline.locks_select fun g₁ _ hl => ?_)
  refine locks_lockRows (r := lockRank 2 (3 * level d + 1) []) hheld (fun id hid => ?_)
    (fun m hm => .inl (hbelow m hm)) fun L' jobs hL' hkept => ?_
  · obtain ⟨j₁, hmem, rfl⟩ := mem_lifecycleJobIds.mp hid
    obtain ⟨hj₁, hv⟩ := Store.mem_jobsOf.mp hmem
    obtain ⟨j, hj, hs⟩ := hl.le.db.job hj₁
    have hof : g.db.versionOf? (.calculationJob j₁.id) = some v := by
      rw [Store.versionOf?_job hj, (job_columns hs).2.1, hv]
    exact ⟨Store.lockRank?_job level hof hd, hof⟩
  · exact hpost L' jobs (fun m hm => (hL' m hm).below (lockRank_lt_place (by omega)))
      (hkept _ hheld)

/-- The attempts of all these jobs. -/
theorem locks_lockLifecycleAttempts {v : Uuid} {d : String} (hd : g.db.versionDomain? v = some d)
    (hheld : .forUpdate (.datasetVersion v) ∈ L)
    (hbelow : AllBelow level g.db env (lockRank 2 (3 * level d + 2) []) L)
    {post : List RowLock → List Write → List LockedLifecycleAttempt → Prop}
    (hpost : ∀ L' attempts, .forUpdate (.datasetVersion v) ∈ L' → post L' [] attempts) :
    Tx.LocksInOrder honours level g env L [] (lockLifecycleAttempts v) post := by
  refine Discipline.locks_bind (Discipline.locks_select fun g₁ _ hl => ?_)
  refine locks_lockRows (r := lockRank 2 (3 * level d + 2) []) hheld (fun id hid => ?_)
    (fun m hm => .inl (hbelow m hm)) fun L' attempts _ hkept => hpost L' attempts (hkept _ hheld)
  obtain ⟨j₁, hmem, a₁, hmem', rfl⟩ := mem_lifecycleAttemptIds.mp hid
  obtain ⟨hj₁, hv⟩ := Store.mem_jobsOf.mp hmem
  obtain ⟨ha₁, hjob⟩ := Store.mem_attemptsOf.mp hmem'
  obtain ⟨j, hj, hs⟩ := hl.le.db.job hj₁
  obtain ⟨a, ha, hsa⟩ := hl.le.db.attempt ha₁
  have hof : g.db.versionOf? (.executionAttempt a₁.id) = some v := by
    refine Store.versionOf?_attempt ha ?_
    rw [(attempt_columns hsa).2.1, hjob, Store.versionOf?_job hj, (job_columns hs).2.1, hv]
  exact ⟨Store.lockRank?_attempt level hof hd, hof⟩

/-- Last the version is updated, which is held. -/
theorem locks_applyTransition {dataset : LockedLifecycleDataset} {target : LifecycleTarget}
    (hheld : .forUpdate (.datasetVersion dataset.datasetVersionId) ∈ L) :
    Tx.LocksInOrder honours level g env L ws (applyTransition env dataset target)
      fun _ _ _ => True := by
  refine Discipline.locks_bind (locks_updateHeld hheld fun _ _ _ _ => ?_)
  split
  · trivial
  · exact Discipline.locks_throw

/-! ### The commands -/

/-- A submission needs no series. -/
theorem locks_submitDatasetValidation {id : Uuid} (hinv : Invariant honours g) :
    Tx.LocksInOrder honours level g env [] [] (submitDatasetValidation id env)
      fun _ _ _ => True := by
  refine Discipline.locks_bind (locks_lockLifecycleDataset hinv allBelow_nil
    (fun _ => Discipline.locks_throw) fun d dataset hd hid hL => ?_)
  dsimp only
  split
  · trivial
  split
  · exact Discipline.locks_throw
  split
  · exact Discipline.locks_throw
  refine Discipline.locks_bind (locks_lockLifecycleJobs hd List.mem_cons_self hL
    fun L₁ jobs hL₁ hheld₁ => ?_)
  split
  · exact Discipline.locks_throw
  refine Discipline.locks_bind (locks_lockLifecycleAttempts hd hheld₁ hL₁
    fun L₂ attempts hheld₂ => ?_)
  split
  · exact Discipline.locks_throw
  split
  · exact Discipline.locks_throw
  · exact locks_applyTransition (hid ▸ hheld₂)

/-- The series comes before the version, whatever series it is. -/
theorem locks_lockTerminalDecisionDataset {id seriesId : Uuid} (hinv : Invariant honours g)
    {post : List RowLock → List Write → LockedLifecycleDataset → Prop}
    (hpost : ∀ L' d x, g.db.versionDomain? id = some d → x.datasetVersionId = id →
      .forUpdate (.datasetVersion id) ∈ L' →
      AllBelow level g.db env (lockRank 2 (3 * level d + 1) []) L' → post L' [] x) :
    Tx.LocksInOrder honours level g env [] [] (lockTerminalDecisionDataset id seriesId) post := by
  refine Discipline.locks_bind (locks_lockLifecycleSeries fun L₁ locked hL₁ => ?_)
  split
  · exact Discipline.locks_throw
  refine Discipline.locks_bind (locks_lockLifecycleDataset hinv hL₁
    (fun _ => Discipline.locks_throw) fun d dataset hd hid hL => ?_)
  dsimp only
  split
  · exact Discipline.locks_throw
  · exact hpost _ d dataset hd hid List.mem_cons_self hL

theorem locks_decideValidatedDataset {id seriesId : Uuid} {decision : TerminalDecision}
    (hinv : Invariant honours g) :
    Tx.LocksInOrder honours level g env [] [] (decideValidatedDataset id seriesId decision env)
      fun _ _ _ => True := by
  refine Discipline.locks_bind (locks_lockTerminalDecisionDataset hinv
    fun L' d dataset _ hid hheld _ => ?_)
  split
  · trivial
  split
  · exact Discipline.locks_throw
  · exact locks_applyTransition (hid ▸ hheld)

/-- An abandonment locks series, version, jobs and attempts. -/
theorem locks_abandonDatasetVersion {id seriesId : Uuid} (hinv : Invariant honours g) :
    Tx.LocksInOrder honours level g env [] [] (abandonDatasetVersion id seriesId env)
      fun _ _ _ => True := by
  refine Discipline.locks_bind (locks_lockTerminalDecisionDataset hinv
    fun L' d dataset hd hid hheld hL => ?_)
  split
  · trivial
  split
  · exact Discipline.locks_throw
  refine Discipline.locks_bind (locks_lockLifecycleJobs hd hheld hL fun L₁ jobs hL₁ hheld₁ => ?_)
  split
  · exact Discipline.locks_throw
  refine Discipline.locks_bind (locks_lockLifecycleAttempts hd hheld₁ hL₁
    fun L₂ attempts hheld₂ => ?_)
  split
  · exact Discipline.locks_throw
  split
  · exact Discipline.locks_throw
  · exact locks_applyTransition (hid ▸ hheld₂)

end CostEngine
