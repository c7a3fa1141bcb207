import CostEngine.System.LockOrder
import CostEngine.Transaction.FirstRun

/-! # The order in which a transaction locks

`Tx.LocksInOrder` says of statements that every lock they ask for follows those that are held,
with the rows ranked by the levels of their domains. The calculation types are locked in the
order of their columns, and what their definitions require is read under these locks; on the
levels of `Store.Layered` the required domains then come one after the other. -/

namespace CostEngine

open Relational (Table)
open Concurrency (Txn Discipline)

/-- The statements `p` ask for their locks in the order of the levels. -/
abbrev Tx.LocksInOrder {α : Type} (honours : Prop) (level : String → ℕ) (g : Moment) (env : TxEnv)
    (L : List RowLock) (ws : List Write) (p : Tx α) (post : List RowLock → List Write → α → Prop) :
    Prop := (discipline honours).Locks g (LockFollows level g.db env) L ws p post

/-- All the locks held are below `r`. -/
def AllBelow (level : String → ℕ) (s : Store) (env : TxEnv) (r : LockRank) (L : List RowLock) :
    Prop := ∀ m ∈ L, m.Below level s env r

/-! ## Ranks of the rows -/

namespace Store

variable {s s' : Store} (level : String → ℕ) {id : Uuid} {d : String}

theorem lockRank?_series (h : s.seriesDomain? id = some d) :
    s.lockRank? level (.datasetSeries id) = some (lockRank 1 (3 * level d) []) := by
  simp [lockRank?, h]

theorem lockRank?_version (h : s.versionDomain? id = some d) :
    s.lockRank? level (.datasetVersion id) = some (lockRank 2 (3 * level d) []) := by
  simp [lockRank?, h]

theorem lockRank?_type {ct : CalculationType} (h : s.calculationTypes.get? id = some ct) :
    s.lockRank? level (.calculationType id)
      = some (lockRank 1 (3 * level ct.domain + 1) [ct.domain, ct.code, id]) := by
  have hid : ct.id = id := Table.get?_key h
  simp [lockRank?, h, hid]

theorem versionOf?_job {j : CalculationJob} (hj : s.calculationJobs.get? id = some j) :
    s.versionOf? (.calculationJob id) = some j.outputDatasetVersionId := by
  simp [versionOf?, hj]

theorem lockRank?_job {v : Uuid} (hv : s.versionOf? (.calculationJob id) = some v)
    (h : s.versionDomain? v = some d) :
    s.lockRank? level (.calculationJob id) = some (lockRank 2 (3 * level d + 1) []) := by
  simp [lockRank?, hv, h]

theorem versionOf?_attempt {a : ExecutionAttempt} {v : Uuid}
    (ha : s.executionAttempts.get? id = some a)
    (hv : s.versionOf? (.calculationJob a.calculationJobId) = some v) :
    s.versionOf? (.executionAttempt id) = some v := by
  simp only [versionOf?, Option.map_eq_some_iff] at hv
  obtain ⟨j, hj, rfl⟩ := hv
  simp [versionOf?, ha, hj]

theorem lockRank?_attempt {v : Uuid} (hv : s.versionOf? (.executionAttempt id) = some v)
    (h : s.versionDomain? v = some d) :
    s.lockRank? level (.executionAttempt id) = some (lockRank 2 (3 * level d + 2) []) := by
  simp [lockRank?, hv, h]

/-! ### Domains -/

theorem seriesDomain?_of_row {r : DatasetSeries} (h : s.datasetSeries.get? id = some r) :
    s.seriesDomain? id = some r.identity.domain := by
  rw [seriesDomain?, h]
  rfl

theorem versionDomain?_of_row {v : DatasetVersion} (h : s.datasetVersions.get? id = some v) :
    s.versionDomain? id = s.seriesDomain? v.datasetSeriesId := by
  rw [versionDomain?, h]
  rfl

/-- A version that is there belongs to a domain. -/
theorem References.versionDomain? (href : s.References) (h : s.datasetVersions.get? id ≠ none) :
    ∃ d, s.versionDomain? id = some d := by
  obtain ⟨v, hv⟩ := Option.ne_none_iff_exists'.mp h
  obtain ⟨r, hr, -⟩ := href.version id v hv
  exact ⟨_, (versionDomain?_of_row hv).trans (seriesDomain?_of_row hr)⟩

/-- A job has a version in a domain. -/
theorem References.jobDomain (href : s.References) {j : CalculationJob}
    (hj : s.calculationJobs.get? id = some j) :
    ∃ d, s.versionDomain? j.outputDatasetVersionId = some d := by
  obtain ⟨v, r, -, hv, -⟩ := href.job id j hj
  exact href.versionDomain? (Table.row_ne_none hv)

/-- A series stays in its domain. -/
theorem Grows.seriesDomain? (hg : s.Grows s') (h : s.seriesDomain? id = some d) :
    s'.seriesDomain? id = some d := by
  obtain ⟨r, hr, rfl⟩ := Option.map_eq_some_iff.mp h
  obtain ⟨r', hr', hid⟩ := hg.seriesRow hr
  rw [seriesDomain?_of_row hr', hid]

end Store

/-! ## What is below -/

section Below

variable {level : String → ℕ} {s : Store} {env : TxEnv} {r r' r'' : LockRank} {L : List RowLock}
variable {l m : RowLock} {v : Uuid}

theorem RowLock.Below.mono (h : m.Below level s env r) (hr : r ≤ r') : m.Below level s env r' :=
  h.imp_right (Or.imp_right fun ⟨r₀, hr₀, hlt⟩ => ⟨r₀, hr₀, hlt.trans_le hr⟩)

theorem RowLock.below_of_rank (h : s.lockRank? level m.row = some r) (hr : r < r') :
    m.Below level s env r' := .inr (.inr ⟨r, h, hr⟩)

theorem AllBelow.mono (h : AllBelow level s env r L) (hr : r ≤ r') : AllBelow level s env r' L :=
  fun m hm => (h m hm).mono hr

theorem AllBelow.cons (hl : l.Below level s env r) (h : AllBelow level s env r L) :
    AllBelow level s env r (l :: L) := List.forall_mem_cons.mpr ⟨hl, h⟩

/-- A row that is held is below, in whatever mode. -/
theorem AllBelow.row (h : AllBelow level s env r L) {mode mode' : LockMode} {row : Row}
    (hm : ⟨mode, row⟩ ∈ L) : RowLock.Below level s env r ⟨mode', row⟩ :=
  (h ⟨mode, row⟩ hm :)

@[simp] theorem allBelow_nil : AllBelow level s env r [] := fun m hm => by cases hm

/-- A row comes next when all that is held is below it. -/
theorem AllBelow.next (h : AllBelow level s env r L) {row : Row}
    (hrow : s.lockRank? level row = some r) : row.Next level s env L := ⟨r, hrow, .inl h⟩

/-- Rows of one version are below whatever ranks above it. -/
theorem RowLock.BelowIn.below (h : m.BelowIn level s env v r) (hr : r < r') :
    m.Below level s env r' :=
  h.elim (fun h => h.mono hr.le) fun ⟨hm, _⟩ => RowLock.below_of_rank hm hr

end Below

/-! ## The types -/

section Statements

variable {honours : Prop} {level : String → ℕ} {g : Moment} {env : TxEnv} {L : List RowLock}
variable {ws : List Write}

/-- The columns by which the jobs of a version are sorted. -/
def DatasetCalculationJobContext.typeKey (c : DatasetCalculationJobContext) : List String :=
  [c.calculationTypeDomain, c.calculationTypeCode, c.calculationTypeId]

/-- The types are sorted by their columns; two jobs of one type lock it once. -/
theorem locks_lockCalculationTypes {datasetVersionId : Uuid} {n : ℕ}
    {jobs : List DatasetCalculationJobContext} {post : List RowLock → List Write → Unit → Prop}
    (hjobs : ∀ job ∈ jobs, g.db.lockRank? level (.calculationType job.calculationTypeId)
      = some (lockRank 1 n job.typeKey))
    (hsorted : jobs.Pairwise fun a b => a.typeKey ≤ b.typeKey)
    (hbelow : ∀ job ∈ jobs, AllBelow level g.db env (lockRank 1 n job.typeKey) L
      ∨ .forUpdate (.calculationType job.calculationTypeId) ∈ L)
    (hpost : ∀ L', (∀ m ∈ L', m ∈ L ∨ ∃ k, g.db.lockRank? level m.row = some (lockRank 1 n k)) →
      (∀ m ∈ L, m ∈ L') →
      (∀ job ∈ jobs, .forUpdate (.calculationType job.calculationTypeId) ∈ L') → post L' ws ()) :
    Tx.LocksInOrder honours level g env L ws (lockCalculationTypes datasetVersionId jobs) post := by
  induction jobs generalizing L with
  | nil => exact hpost L (fun m hm => .inl hm) (fun _ h => h) (by simp)
  | cons job jobs ih =>
      rw [List.pairwise_cons] at hsorted
      have hrank := hjobs job List.mem_cons_self
      have hfollows : LockFollows level g.db env L
          (.forUpdate (.calculationType job.calculationTypeId)) := by
        rcases hbelow job List.mem_cons_self with h | h
        · exact .next (h.next hrank) (by simp)
        · exact .again h
      refine Discipline.locks_bind (Discipline.locks_selectForUpdate Discipline.locks_throw
        fun g₁ row _ _ _ => ⟨hfollows, fun g₂ _ _ => ?_⟩)
      split
      · exact Discipline.locks_throw
      · split
        · exact Discipline.locks_throw
        · refine ih (fun job' hjob' => hjobs job' (List.mem_cons_of_mem _ hjob')) hsorted.2 ?_ ?_
          · intro job' hjob'
            rcases hbelow job' (List.mem_cons_of_mem _ hjob') with h | h
            · -- The next type sorts after this one, or it is the same.
              rcases (hsorted.1 job' hjob').lt_or_eq with hlt | heq
              · exact .inl (.cons (RowLock.below_of_rank hrank (lockRank_lt_key hlt)) h)
              · simp only [DatasetCalculationJobContext.typeKey, List.cons.injEq] at heq
                rw [← heq.2.2.1]
                exact .inr List.mem_cons_self
            · exact .inr (List.mem_cons_of_mem _ h)
          · intro L' hL' hkept htypes
            refine hpost L' (fun m hm => ?_) (fun m hm => hkept m (List.mem_cons_of_mem _ hm)) ?_
            · rcases hL' m hm with h | h
              · rcases List.mem_cons.mp h with rfl | h
                · exact .inr ⟨_, hrank⟩
                · exact .inl h
              · exact .inr h
            · intro job' hjob'
              rcases List.mem_cons.mp hjob' with rfl | hjob'
              · exact hkept _ List.mem_cons_self
              · exact htypes job' hjob'

/-! ### The domains they require -/

/-- Definitions and required domains are read under the locks of the types. -/
theorem locks_findLatestPublishedDependencyDefinitions {ids : List Uuid}
    {post : List RowLock → List Write → List DependencyDefinition → Prop}
    (hheld : ∀ id ∈ ids, .forUpdate (.calculationType id) ∈ L)
    (hpost : post L [] (g.db.latestPublishedDefinitions ids)) :
    Tx.LocksInOrder honours level g env L [] (findLatestPublishedDependencyDefinitions ids)
      post := by
  refine Discipline.locks_select fun g₁ _ hl => ?_
  have hsame : g₁.db.latestPublishedDefinitions ids = g.db.latestPublishedDefinitions ids := by
    unfold Store.latestPublishedDefinitions
    refine List.filterMap_congr fun id hid => ?_
    have hid := hheld id (List.mem_dedup.mp (mem_orderBy.mp hid))
    exact (Store.latestPublishedDefinition?_congr (later_same hl ⟨_, hid, rfl, rfl⟩)).symm
  rw [Concurrency.Machine.view_nil, hsame]
  exact hpost

theorem locks_findRequiredDomains {definitions : List DependencyDefinition}
    {post : List RowLock → List Write → List String → Prop}
    (hdefinitions : ∀ d ∈ definitions, d ∈ g.db.publishedDefinitionsOf d.calculationTypeId
      ∧ .forUpdate (.calculationType d.calculationTypeId) ∈ L)
    (hpost : post L [] (g.db.requiredDomains (definitions.map (·.id)))) :
    Tx.LocksInOrder honours level g env L [] (findRequiredDomains (definitions.map (·.id)))
      post := by
  refine Discipline.locks_select fun g₁ _ hl => ?_
  have hsame : g₁.db.requiredDomains (definitions.map (·.id))
      = g.db.requiredDomains (definitions.map (·.id)) := by
    unfold Store.requiredDomains
    congr 2
    rw [List.flatMap_map, List.flatMap_map]
    refine List.flatMap_congr fun d hd => ?_
    -- Under the lock of its type a definition is published in both states.
    obtain ⟨hmem, hheld⟩ := hdefinitions d hd
    rw [(later_same hl ⟨_, hheld, rfl, rfl⟩).2] at hmem
    obtain ⟨hrow, -, hpub⟩ := Store.mem_publishedDefinitionsOf.mp hmem
    rw [(hl.le.db.definitions d.id d hrow hpub).2]
  rw [Concurrency.Machine.view_nil, hsame]
  exact hpost

end Statements

/-! ## Levels -/

/-- The domains of the types, with those that their latest published definitions require. -/
def Store.domainRequirements (s : Store) : List (String × String) :=
  s.calculationTypes.rows.flatMap fun ct =>
    (s.latestPublishedDefinition? ct.id).toList.flatMap fun d =>
      (s.definitionRowsOf d.id).map fun row => (ct.domain, row.requiredDomain)

/-- A type of the domain requires the other. -/
def Store.DomainRequires (s : Store) (domain required : String) : Prop :=
  (domain, required) ∈ s.domainRequirements

/-- A first Run locks the one domain before the other: it is a Run of the one and requires the
other, or it requires both, and locks them in the order of their names. -/
inductive Store.LockedBefore (s : Store) : String → String → Prop
  | requires {domain required : String} (h : s.DomainRequires domain required) :
      s.LockedBefore domain required
  | together {domain required required' : String} (h : s.DomainRequires domain required)
      (h' : s.DomainRequires domain required') (hlt : required < required') :
      s.LockedBefore required required'

/-- The domains are on levels in the order in which they are locked. -/
def Store.Layered (s : Store) (level : String → ℕ) : Prop :=
  ∀ domain domain', s.LockedBefore domain domain' → level domain < level domain'

theorem pairwise_orderBy {α : Type} (f : α → List String) (rows : List α) :
    (orderBy f rows).Pairwise fun a b => f a ≤ f b := List.pairwise_insertionSort _ rows

namespace Store

variable {s : Store} {level : String → ℕ}

/-- Required domains are sorted and distinct. -/
theorem requiredDomains_sorted (ids : List Uuid) : (s.requiredDomains ids).Pairwise (· < ·) := by
  have hsorted : (s.requiredDomains ids).Pairwise fun a b => [a] ≤ [b] := pairwise_orderBy _ _
  refine (hsorted.and (requiredDomains_nodup ids)).imp fun ⟨hle, hne⟩ => ?_
  rcases hle.lt_or_eq with hlt | heq
  · cases hlt with
    | rel h => exact h
    | cons h => cases h
  · exact absurd (List.singleton_inj.mp heq) hne

/-- The latest definitions of types of one domain require what the domain requires. -/
theorem requires_of_mem {ids : List Uuid} {domain required : String}
    (hids : ∀ id ∈ ids, ∃ ct, s.calculationTypes.get? id = some ct ∧ ct.domain = domain)
    (h : required ∈ s.requiredDomains ((s.latestPublishedDefinitions ids).map (·.id))) :
    s.DomainRequires domain required := by
  obtain ⟨definitionId, hdefinition, hrequired⟩ := mem_requiredDomains.mp h
  obtain ⟨d, hd, rfl⟩ := List.mem_map.mp hdefinition
  obtain ⟨hid, hlatest⟩ := mem_latestPublishedDefinitions hd
  obtain ⟨ct, hct, hdomain⟩ := hids _ hid
  have hkey : ct.id = d.calculationTypeId := Table.get?_key hct
  obtain ⟨row, hrow, rfl⟩ := List.mem_map.mp (mem_orderBy.mp hrequired)
  refine List.mem_flatMap.mpr ⟨ct, Table.get?_mem hct, List.mem_flatMap.mpr ⟨d, ?_, ?_⟩⟩
  · rw [hkey, hlatest]
    exact List.mem_singleton_self d
  · exact List.mem_map.mpr ⟨row, hrow, by rw [hdomain]⟩

/-- So the domains that are required together are on rising levels. -/
theorem Layered.sorted (h : s.Layered level) {ids : List Uuid} {domain : String}
    (hids : ∀ id ∈ ids, ∃ ct, s.calculationTypes.get? id = some ct ∧ ct.domain = domain) :
    (s.requiredDomains ((s.latestPublishedDefinitions ids).map (·.id))).Pairwise
      fun a b => level a < level b :=
  (requiredDomains_sorted _).imp_of_mem fun ha hb hab =>
    h _ _ (.together (requires_of_mem hids ha) (requires_of_mem hids hb) hab)

end Store

end CostEngine
