import CostEngine.RawIngestion.Numbering

/-! # The transaction that allocates a batch

Under the lock of the series the new number follows the last one, and the check for an active
batch that its statement makes still holds when it commits. -/

namespace CostEngine

open Relational (Table)
open Concurrency (Discipline Ends Outcome Txn)
open RawIngestionStore (Allocates Appends)

/-- The committed tables stay numbered, a series keeps its key, and a lock guards what `Same`
says. -/
def rawIngestionDiscipline : Discipline rawIngestion where
  Inv g := g.db.Numbered
  le g g' := g.db.Keeps g'.db
  same := RawIngestionStore.Same
  le_refl g := .refl g.db
  le_trans h h' := h.trans h'
  same_refl := RawIngestionStore.Same.refl
  same_trans h h' := h.trans h'
  world_step _ h := h.elim
  config_step h hmoves := by
    refine ⟨hmoves.numbered h, fun id r hr => ⟨r, ?_, rfl⟩, fun l _ => hmoves.same l⟩
    rw [hmoves.series]
    exact hr

/-- How a transaction ended. -/
abbrev RawIngestionEnded (α : Type) :=
  Outcome RawIngestionStore RawIngestionLock RawIngestionWrite RawIngestionError Unit α

variable {g fl : RawIngestionMoment} {L : List RawIngestionLock}
variable {input : AllocateRawIngestionBatchInput} {env : TxEnv}

/-! ## The series -/

section Series

variable {post : RawIngestionEnded AllocatedRawIngestionSeries → Prop}
variable (herror : ∀ seen last e L' ws', post ⟨seen, last, .error e, L', ws'⟩)
variable (hpost : ∀ seen last r u L', rawIngestionDiscipline.Later L' last g →
  g.db.Allocates L' r u → r.key = input →
  post ⟨seen, last, .ok ⟨r.id, r.lastBatchSequence⟩, L', [u]⟩)

include herror hpost

/-- The row that is read under the lock is the one the table still has at the commit. -/
theorem wp_bumpRawIngestionSeries {row : RawIngestionSeries} (hkey : row.key = input)
    (hrow : fl.db.series.get? row.id = some row) :
    rawIngestionDiscipline.Wp g fl L [] (bumpRawIngestionSeries row.id) post := by
  refine Discipline.wp_bind (Discipline.wp_lock fun g₁ hle₁ hl₁ => ?_)
  rw [Discipline.continues_ok]
  refine Discipline.wp_bind (Discipline.wp_select fun g₂ hle₂ _ hl₂ => ?_)
  rw [Discipline.continues_ok, Concurrency.Machine.view_nil]
  obtain ⟨row', hrow', hkey'⟩ := (Discipline.le_trans _ hle₁ hle₂) _ _ hrow
  have hid : row'.id = row.id := Table.get?_key hrow'
  have hfinal : g.db.series.get? row'.id = some row' :=
    hid ▸ (hl₂.same _ List.mem_cons_self).1.symm.trans hrow'
  rw [hrow']
  dsimp only
  split
  · exact Discipline.wp_throw (herror _ _ _ _ _)
  · refine Discipline.wp_bind (Discipline.wp_change ?_)
    rw [Discipline.continues_ok]
    exact Discipline.wp_pure (hpost _ g₂ _ _ _ hl₂
      (.bumped row' hfinal (hid ▸ List.mem_cons_self)) (hkey'.trans hkey))

/-- The counter moves on by one, or a new series starts at one. -/
theorem wp_allocateRawIngestionSeries {newSeriesId : Uuid} :
    rawIngestionDiscipline.Wp g fl [] [] (allocateRawIngestionSeries env newSeriesId input)
      post := by
  -- The row was found by its key, in the state of some statement.
  have hfound : ∀ {g₁ : RawIngestionMoment} {L row} (seen),
      g₁.db.seriesWith? input = some row → rawIngestionDiscipline.Wp g g₁ L []
        (bumpRawIngestionSeries row.id) fun o => post (o.after seen) := by
    intro g₁ L row seen hrow
    obtain ⟨hget, hkey⟩ := RawIngestionStore.seriesWith?_eq_some hrow
    refine wp_bumpRawIngestionSeries ?_ ?_ hkey hget
    · exact fun _ _ _ _ _ => herror _ _ _ _ _
    · exact fun _ _ _ _ _ => hpost _ _ _ _ _
  refine Discipline.wp_bind (Discipline.wp_select fun g₁ _ _ _ => ?_)
  rw [Discipline.continues_ok, Concurrency.Machine.view_nil]
  cases hrow₁ : g₁.db.seriesWith? input with
  | some row => exact hfound [g₁] hrow₁
  | none =>
      refine Discipline.wp_bind (Discipline.wp_lock fun g₂ _ _ => ?_)
      rw [Discipline.continues_ok]
      refine Discipline.wp_bind (Discipline.wp_select fun g₃ _ _ hl₃ => ?_)
      rw [Discipline.continues_ok, Concurrency.Machine.view_nil]
      cases hrow₃ : g₃.db.seriesWith? input with
      | some row => exact hfound [g₁, g₃] hrow₃
      | none =>
          refine Discipline.wp_bind (Discipline.wp_insertRow ?_ ?_)
          · exact fun e g₄ _ _ _ _ => herror _ _ _ _ _
          intro g₄ _ _ hl₄ hfree
          rw [Discipline.continues_ok]
          -- The key and the UUID are still free when the transaction ends.
          have hkey : g.db.seriesWith? input = none := by
            have hsame : (g₃.db.seriesWith? input).map (·.id)
                = (g.db.seriesWith? input).map (·.id) := hl₃.same _ List.mem_cons_self
            rw [hrow₃] at hsame
            exact Option.map_eq_none_iff.mp hsame.symm
          have hnew : g.db.series.get? newSeriesId = none := by
            rw [← (hl₄.same _ List.mem_cons_self).1]
            by_contra hne
            exact Table.no_row hfree (if_pos (Option.isSome_iff_ne_none.mpr hne))
          exact Discipline.wp_pure (hpost _ g₄
            ⟨newSeriesId, input.domain, input.businessKey, 1, env.now⟩ _ _ hl₄
            (.inserted _ hnew hkey rfl List.mem_cons_self
              (List.mem_cons_of_mem _ List.mem_cons_self)) rfl)

end Series

/-! ## The batch -/

/-- What the transaction has done when it commits. -/
structure Allocation (input : AllocateRawIngestionBatchInput)
    (o : RawIngestionEnded AllocateRawIngestionBatchResult) (g : RawIngestionMoment)
    (r : RawIngestionSeries) (u : RawIngestionWrite) (batch : RawIngestionBatch) : Prop where
  writes : o.writes = [u, .insertBatch batch]
  allocates : g.db.Allocates o.locks r u
  appends : g.db.Appends o.locks r batch
  key : r.key = input

/-- A result names the series, the number and the batch that the transaction leaves. -/
def AllocationSpec (input : AllocateRawIngestionBatchInput) (_ : TxEnv)
    (o : RawIngestionEnded AllocateRawIngestionBatchResult) (g : RawIngestionMoment) : Prop :=
  ∀ x, o.result = .ok x → ∃ r u batch, Allocation input o g r u batch
    ∧ x = ⟨batch.id, r.id, r.lastBatchSequence, .loading⟩

/-- An insert that passes the active-batch check finds no active batch at the commit either. -/
theorem wp_allocateRawIngestionBatchTx : rawIngestionDiscipline.Wp g fl [] []
    (allocateRawIngestionBatchTx input env) fun o => AllocationSpec input env o g := by
  refine Discipline.wp_bind (wp_allocateRawIngestionSeries ?_ ?_)
  · exact fun seen last e L' ws' => nofun
  intro seen last r u L hl hallocates hkey
  rw [Discipline.continues_ok]
  refine Discipline.wp_bind (Discipline.wp_insertRow ?_ ?_)
  · exact fun e g₁ _ _ _ _ => nofun
  intro g₁ _ _ hl₁ hfree
  rw [Discipline.continues_ok]
  have hbatches : (rawIngestion.view g₁.db [u]).batches = g₁.db.batches := by
    cases hallocates <;> rfl
  dsimp only at hfree
  rw [RawIngestionStore.batchesOf, hbatches] at hfree
  split at hfree
  · cases hfree
  rename_i hfresh
  split at hfree
  · cases hfree
  split at hfree
  · cases hfree
  rename_i hidle
  refine Discipline.wp_pure ?_
  rintro x ⟨⟩
  refine ⟨r, u, _, ⟨rfl, hallocates.mono fun l hl => List.mem_cons_of_mem _ hl,
    ⟨?_, rfl, rfl, ?_, List.mem_cons_self⟩, hkey⟩, rfl⟩
  · refine hl₁.same _ List.mem_cons_self ?_
    exact Option.not_isSome_iff_eq_none.mp hfresh
  · have hsame := hl₁.same _ (List.mem_cons_of_mem _ hallocates.held)
    exact hsame.2.2 (Bool.not_eq_true _ |>.mp hidle)

/-! ## Calls -/

/-- A call runs its transaction once, and is rejected when that was rolled back. -/
structure AllocationPost (input : AllocateRawIngestionBatchInput)
    (log : List (Concurrency.Event RawIngestionError AllocateRawIngestionBatchInput
      (fun _ => AllocateRawIngestionBatchResult) Empty Empty (fun _ => Empty)))
    (result : Except RawIngestionError AllocateRawIngestionBatchResult) : Prop where
  once : ∃ r, log = [.ended input r] ∧ ((∃ e, result = .error e) ↔ ∃ e, r = .error e)

theorem ends_allocateRawIngestionBatchTx {o : RawIngestionEnded AllocateRawIngestionBatchResult}
    (hinv : g.db.Numbered) (hspec : AllocationSpec input env o g) :
    Ends rawIngestionDiscipline AllocationSpec input env o g where
  spec := hspec
  inv x hx := by
    obtain ⟨r, u, batch, h, -⟩ := hspec x hx
    rw [h.writes]
    exact h.allocates.numbered h.appends hinv
  le x hx := by
    obtain ⟨r, u, batch, h, -⟩ := hspec x hx
    rw [h.writes]
    exact h.allocates.keeps hinv
  same x hx l hfree := by
    obtain ⟨r, u, batch, h, -⟩ := hspec x hx
    rw [h.writes]
    exact h.allocates.same h.appends hinv fun hl => hfree l hl rfl

/-- Whatever the transaction gives, the call passes on. -/
theorem good_allocateRawIngestionBatch : Concurrency.Call.Good rawIngestionDiscipline AllocationSpec
    (fun _ _ => False) (fun log r _ => AllocationPost input log r) []
    (allocateRawIngestionBatch input) g := by
  refine Concurrency.Call.Good.tryCatch fun g₀ g' env o _ _ hl hexec => ?_
  refine ⟨ends_allocateRawIngestionBatchTx hl.inv (wp_allocateRawIngestionBatchTx o hexec), ?_⟩
  cases o.result with
  | ok x => exact ⟨_, rfl, Iff.rfl⟩
  | error e =>
      show Concurrency.Call.Good _ _ _ _ _ (if _ then _ else _) _
      split
      · exact ⟨_, rfl, iff_of_true ⟨_, rfl⟩ ⟨_, rfl⟩⟩
      · exact ⟨_, rfl, Iff.rfl⟩

/-! ## Runs -/

/-- A state that some run from the empty tables passes. -/
def RawIngestionSystem.Reachable (st : RawIngestionSystem) : Prop :=
  rawIngestion.Run RawIngestionSystem.start st

theorem RawIngestionSystem.Reachable.safe {st : RawIngestionSystem} (h : st.Reachable) :
    Concurrency.Safe rawIngestionDiscipline AllocationSpec (fun _ _ => False)
      (fun input log r _ => AllocationPost input log r) st := by
  have hinv : rawIngestionDiscipline.Inv ⟨⟨.empty, .empty⟩, ()⟩ :=
    RawIngestionStore.numbered_empty
  exact Concurrency.run_safe (fun _ _ _ _ _ hpost _ => hpost)
    (fun _ _ _ => good_allocateRawIngestionBatch) (Concurrency.quiet_safe hinv) h

end CostEngine
