import Mathlib.Data.Prod.Lex
import CostEngine.Concurrency.LockOrder
import CostEngine.System.Discipline

/-! # The order of row locks

Locks are ranked by the level of a domain, on which the domains it requires come later: the
series and the types of a level before those of the next, and after all of them, again level by
level, the versions with their jobs and attempts. A lock follows those that are held when it
ranks above them, or when nobody else can hold its row. -/

namespace CostEngine

open Concurrency (Machine Thread Chain)

/-! ## Ranks -/

abbrev LockRank := ℕ ×ₗ ℕ ×ₗ List String

/-- A class, a place in it, and among the types of a domain the columns they are sorted by. -/
def lockRank (kind place : ℕ) (key : List String) : LockRank := toLex (kind, toLex (place, key))

theorem lockRank_lt_kind {c c' n n' : ℕ} {k k' : List String} (h : c < c') :
    lockRank c n k < lockRank c' n' k' := Prod.Lex.toLex_lt_toLex.mpr (.inl h)

theorem lockRank_lt_place {c n n' : ℕ} {k k' : List String} (h : n < n') :
    lockRank c n k < lockRank c n' k' :=
  Prod.Lex.toLex_lt_toLex.mpr (.inr ⟨rfl, Prod.Lex.toLex_lt_toLex.mpr (.inl h)⟩)

theorem lockRank_le_place {c n n' : ℕ} {k : List String} (h : n ≤ n') :
    lockRank c n k ≤ lockRank c n' k := by
  rcases h.lt_or_eq with hlt | rfl
  · exact (lockRank_lt_place hlt).le
  · exact le_rfl

theorem lockRank_lt_key {c n : ℕ} {k k' : List String} (h : k < k') :
    lockRank c n k < lockRank c n k' :=
  Prod.Lex.toLex_lt_toLex.mpr (.inr ⟨rfl, Prod.Lex.toLex_lt_toLex.mpr (.inr ⟨rfl, h⟩)⟩)

namespace Store

variable (s : Store) (level : String → ℕ)

def seriesDomain? (id : Uuid) : Option String :=
  (s.datasetSeries.get? id).map (·.identity.domain)

def versionDomain? (id : Uuid) : Option String := do
  let dv ← s.datasetVersions.get? id
  s.seriesDomain? dv.datasetSeriesId

/-- The version that the row of a job or an attempt belongs to. -/
def versionOf? : Row → Option Uuid
  | .calculationJob id => (s.calculationJobs.get? id).map (·.outputDatasetVersionId)
  | .executionAttempt id => do
      let ea ← s.executionAttempts.get? id
      let cj ← s.calculationJobs.get? ea.calculationJobId
      pure cj.outputDatasetVersionId
  | _ => none

/-- The rank of the row of a committed store. Definitions and snapshots have none: nobody waits
for them. -/
def lockRank? : Row → Option LockRank
  | .seriesIdentity _ => some (lockRank 0 0 [])
  | .datasetSeries id => (s.seriesDomain? id).map fun d => lockRank 1 (3 * level d) []
  | .calculationType id => (s.calculationTypes.get? id).map fun ct =>
      lockRank 1 (3 * level ct.domain + 1) [ct.domain, ct.code, ct.id]
  | .datasetVersion id => (s.versionDomain? id).map fun d => lockRank 2 (3 * level d) []
  | .calculationJob id => do
      let v ← s.versionOf? (.calculationJob id)
      let d ← s.versionDomain? v
      pure (lockRank 2 (3 * level d + 1) [])
  | .executionAttempt id => do
      let v ← s.versionOf? (.executionAttempt id)
      let d ← s.versionDomain? v
      pure (lockRank 2 (3 * level d + 2) [])
  | .dependencyDefinition _ => none
  | .datasetBuildSnapshot _ => none

end Store

/-! ## New rows -/

/-- The row has an id that the transaction has drawn. -/
def Row.Drawn (env : TxEnv) : Row → Prop
  | .datasetSeries id | .datasetVersion id | .calculationJob id | .datasetBuildSnapshot id
  | .executionAttempt id => ∃ n, id = env.uuid n
  | _ => False

/-- No row has the id. -/
structure Store.Unused (s : Store) (id : Uuid) : Prop where
  series : s.datasetSeries.get? id = none
  version : s.datasetVersions.get? id = none
  job : s.calculationJobs.get? id = none
  attempt : s.executionAttempts.get? id = none

theorem Store.Unused.lockRank? {s : Store} {level : String → ℕ} {env : TxEnv}
    (h : ∀ n, s.Unused (env.uuid n)) {row : Row} (hrow : row.Drawn env) :
    s.lockRank? level row = none := by
  cases row with
  | datasetSeries id =>
      obtain ⟨n, rfl⟩ := hrow
      simp [Store.lockRank?, seriesDomain?, (h n).series]
  | datasetVersion id =>
      obtain ⟨n, rfl⟩ := hrow
      simp [Store.lockRank?, versionDomain?, (h n).version]
  | calculationJob id =>
      obtain ⟨n, rfl⟩ := hrow
      simp [Store.lockRank?, versionOf?, (h n).job]
  | executionAttempt id =>
      obtain ⟨n, rfl⟩ := hrow
      simp [Store.lockRank?, versionOf?, (h n).attempt]
  | datasetBuildSnapshot id => rfl
  | _ => cases hrow

/-! ## The order of the locks of a transaction -/

section

variable (level : String → ℕ) (s : Store) (env : TxEnv)

/-- The held lock is of a new row, of a definition, or of a row ranked below `r`. -/
def RowLock.Below (r : LockRank) (m : RowLock) : Prop :=
  m.row.Drawn env ∨ (∃ id, m.row = .dependencyDefinition id)
    ∨ ∃ r', s.lockRank? level m.row = some r' ∧ r' < r

/-- The held lock is of a row below `r`, or of a row of the version `v` with the same rank. -/
def RowLock.BelowIn (v : Uuid) (r : LockRank) (m : RowLock) : Prop :=
  m.Below level s env r ∨ s.lockRank? level m.row = some r ∧ s.versionOf? m.row = some v

/-- The row ranks above the held locks `L`; rows of the same rank are taken only under the lock
of their version. -/
def Row.Next (L : List RowLock) (row : Row) : Prop :=
  ∃ r, s.lockRank? level row = some r ∧ ((∀ m ∈ L, m.Below level s env r) ∨
    ∃ v, s.versionOf? row = some v ∧ .forUpdate (.datasetVersion v) ∈ L
      ∧ ∀ m ∈ L, m.BelowIn level s env v r)

/-- What a transaction may ask for when it holds the locks `L`: a row it has made, a row it
holds for update, the stronger lock of a job it has updated, the key of a definition, which
nobody locks otherwise, or a row that comes next in the order. -/
inductive LockFollows (L : List RowLock) : RowLock → Prop
  | drawn {l : RowLock} (h : l.row.Drawn env) : LockFollows L l
  | again {l : RowLock} (h : .forUpdate l.row ∈ L) : LockFollows L l
  | upgrade {id : Uuid} (h : .noKeyUpdate (.calculationJob id) ∈ L) :
      LockFollows L (.forUpdate (.calculationJob id))
  | definition (id : Uuid) : LockFollows L (.keyShare (.dependencyDefinition id))
  | next {l : RowLock} (h : l.row.Next level s env L)
      (hshare : ∀ id, l ≠ .keyShare (.calculationJob id)) : LockFollows L l

end

namespace LockFollows

variable {level : String → ℕ} {s : Store} {env env' : TxEnv} {L L' : List RowLock}
variable {l m : RowLock}

/-! ### What is held -/

/-- A lock that is held is of a new row, of a committed row with a rank, or shares a definition. -/
theorem held (h : Chain (LockFollows level s env) L) : ∀ m ∈ L, m.row.Drawn env ∨
    (∃ r, s.lockRank? level m.row = some r) ∨ ∃ id, m = .keyShare (.dependencyDefinition id) := by
  refine h.all (T := fun (_ : List RowLock) (m : RowLock) => m.row.Drawn env ∨
    (∃ r, s.lockRank? level m.row = some r) ∨ ∃ id, m = .keyShare (.dependencyDefinition id))
    (fun h => h) fun L l hl hheld => ?_
  cases hl with
  | drawn h => exact .inl h
  | again h =>
      rcases hheld _ h with h | h | ⟨id, h⟩
      · exact .inl h
      · exact .inr (.inl h)
      · cases h
  | upgrade h =>
      rcases hheld _ h with h | h | ⟨id, h⟩
      · exact .inl h
      · exact .inr (.inl h)
      · cases h
  | definition id => exact .inr (.inr ⟨id, rfl⟩)
  | next h _ =>
      obtain ⟨r, hr, -⟩ := h
      exact .inr (.inl ⟨r, hr⟩)

/-- The key of a job is shared only on top of its lock. -/
theorem job_shared (h : Chain (LockFollows level s env) L) : ∀ m ∈ L, ∀ id,
    m = .keyShare (.calculationJob id) →
      m.row.Drawn env ∨ .forUpdate (.calculationJob id) ∈ L := by
  refine h.all (T := fun (L : List RowLock) (m : RowLock) =>
    ∀ id, m = .keyShare (.calculationJob id) →
      m.row.Drawn env ∨ .forUpdate (.calculationJob id) ∈ L)
    (fun h id hm => (h id hm).imp_right (List.mem_cons_of_mem _)) fun L l hl _ id hid => ?_
  subst hid
  cases hl with
  | drawn h => exact .inl h
  | again h => exact .inr (List.mem_cons_of_mem _ h)
  | next _ hshare => exact absurd rfl (hshare id)

/-! ### Who waits for whom -/

variable (hl : LockFollows level s env L l) (hL : Chain (LockFollows level s env) L)
variable (hL' : Chain (LockFollows level s env') L')
variable (hunused : ∀ n, s.Unused (env.uuid n)) (hunused' : ∀ n, s.Unused (env'.uuid n))
variable (hfresh : ∀ n k, env.uuid n ≠ env'.uuid k)
variable (hfree : ∀ n ∈ L, ∀ m ∈ L', ¬ n.conflict m) (hm : m ∈ L') (hconflict : l.conflict m)
include hl hL hL' hunused hunused' hfresh hfree hm hconflict

/-- A transaction waits only for a row that comes next in the order. -/
theorem next_of_conflict : l.row.Next level s env L := by
  have hheld := held hL' m hm
  have hrow : l.row = m.row := hconflict.1
  -- What one transaction has drawn, no other one has, and no committed row.
  have hnew : ∀ {row : Row}, row.Drawn env → row = m.row → False := by
    rintro row hdrawn rfl
    rcases hheld with h | ⟨r, hr⟩ | ⟨id, rfl⟩
    · cases hmrow : m.row with
      | datasetSeries id | datasetVersion id | calculationJob id | datasetBuildSnapshot id
      | executionAttempt id =>
          rw [hmrow] at h hdrawn
          obtain ⟨n, hn⟩ := hdrawn
          obtain ⟨k, hk⟩ := h
          exact hfresh n k (hn.symm.trans hk)
      | _ =>
          rw [hmrow] at h
          cases h
    · rw [Store.Unused.lockRank? hunused hdrawn] at hr
      cases hr
    · cases hdrawn
  cases hl with
  | drawn h => exact (hnew h hrow).elim
  | again h =>
      -- Nobody else holds a row that is held for update.
      refine absurd ⟨hrow, ?_⟩ (hfree _ h m hm)
      cases m.mode <;> rfl
  | @upgrade id h =>
      have hmode : m.mode = .keyShare := by
        by_contra hne
        refine hfree _ h m hm ⟨hrow, ?_⟩
        cases hmode : m.mode with
        | keyShare => exact absurd hmode hne
        | _ => rfl
      have hmeq : m = .keyShare (.calculationJob id) := by
        obtain ⟨mode, row⟩ := m
        cases hmode
        cases hrow
        rfl
      subst hmeq
      rcases job_shared hL' _ hm id rfl with hdrawn | hupdate
      · -- The other one has made the row, so it has no rank and is not drawn here.
        rcases held hL _ h with h' | ⟨r, hr⟩ | ⟨id', h'⟩
        · exact (hnew h' rfl).elim
        · rw [Store.Unused.lockRank? hunused' hdrawn] at hr
          cases hr
        · cases h'
      · exact absurd ⟨rfl, rfl⟩ (hfree _ h _ hupdate)
  | definition id =>
      rcases hheld with h | ⟨r, hr⟩ | ⟨id', rfl⟩
      · rw [← hrow] at h
        cases h
      · rw [← hrow] at hr
        cases hr
      · cases hconflict.2
  | next h _ => exact h

end LockFollows

/-! ### The measure of a wait -/

/-- The rank of the row that is asked for, and whether its version is held. -/
def waitMeasure (level : String → ℕ) (s : Store) (l : RowLock) (L : List RowLock) :
    LockRank ×ₗ ℕ :=
  toLex ((s.lockRank? level l.row).getD (lockRank 0 0 []),
    match s.versionOf? l.row with
    | some v => if .forUpdate (.datasetVersion v) ∈ L then 1 else 0
    | none => 0)

/-- Whoever holds a row that comes next for another asks for a row of a higher rank, or for one of
the same version, which only one of them can hold. -/
theorem waitMeasure_lt {level : String → ℕ} {s : Store} {env env' : TxEnv} {L L' : List RowLock}
    {l l' m : RowLock} (hl : l.row.Next level s env L) (hl' : l'.row.Next level s env' L')
    (hunused : ∀ n, s.Unused (env'.uuid n)) (hfree : ∀ n ∈ L, ∀ m ∈ L', ¬ n.conflict m)
    (hm : m ∈ L') (hrow : l.row = m.row) :
    waitMeasure level s l L < waitMeasure level s l' L' := by
  obtain ⟨r, hr, -⟩ := hl
  obtain ⟨r', hr', hnext⟩ := hl'
  have hmr : s.lockRank? level m.row = some r := hrow ▸ hr
  have hbelow : m.Below level s env' r' → r < r' := by
    rintro (hdrawn | ⟨id, hid⟩ | ⟨r₁, hr₁, hlt⟩)
    · rw [Store.Unused.lockRank? hunused hdrawn] at hmr
      cases hmr
    · rw [hid] at hmr
      cases hmr
    · rwa [← Option.some.inj (hr₁.symm.trans hmr)]
  have hlt : r < r' → waitMeasure level s l L < waitMeasure level s l' L' := by
    intro h
    unfold waitMeasure
    rw [hr, hr']
    exact Prod.Lex.toLex_lt_toLex.mpr (.inl h)
  rcases hnext with hall | ⟨v, hv', hheld, hall⟩
  · exact hlt (hbelow (hall m hm))
  · rcases hall m hm with h | ⟨hr₁, hv⟩
    · exact hlt (hbelow h)
    · -- The version is held by the one who is waited for, so not by the other.
      obtain rfl : r = r' := Option.some.inj (hmr.symm.trans hr₁)
      have hnot : .forUpdate (.datasetVersion v) ∉ L := fun h => hfree _ h _ hheld ⟨rfl, rfl⟩
      unfold waitMeasure
      rw [hr, hr', hrow, hv, hv']
      dsimp only
      rw [if_neg hnot, if_pos hheld]
      exact Prod.Lex.toLex_lt_toLex.mpr (.inr ⟨rfl, Nat.zero_lt_one⟩)

end CostEngine
