import CostEngine.Concurrency.Soundness
import CostEngine.RawIngestion.Service

/-! # The numbering of raw ingestion batches

`Numbered` is the invariant of the committed tables. The lock of a series guards its counter
and the list of its batches; a batch may become inactive under it, but none becomes active. -/

namespace CostEngine

open Relational (Table)
open Concurrency (Discipline Ends Outcome Txn)

/-! ## The invariant -/

namespace RawIngestionStore

/-- The batches of a series are numbered `1, …, lastBatchSequence` in their order, and at most
one of them is active. -/
structure Numbered (s : RawIngestionStore) : Prop where
  keys : ∀ {r r'}, r ∈ s.series.rows → r' ∈ s.series.rows → r.key = r'.key → r = r'
  numbers : ∀ {id r}, s.series.get? id = some r →
    (s.batchesOf id).map (·.batchSequence) = List.range' 1 r.lastBatchSequence
  owned : ∀ {batch}, batch ∈ s.batches.rows → s.series.get? batch.ingestionSeriesId ≠ none
  active : ∀ id, ((s.batchesOf id).filter (·.status.isActive)).length ≤ 1

/-- What a lock guards. -/
def Same : RawIngestionLock → RawIngestionStore → RawIngestionStore → Prop
  | .seriesKey key, s, s' => (s.seriesWith? key).map (·.id) = (s'.seriesWith? key).map (·.id)
  | .series id, s, s' => s.series.get? id = s'.series.get? id
      ∧ (s.batchesOf id).map (·.batchSequence) = (s'.batchesOf id).map (·.batchSequence)
      ∧ ((s.batchesOf id).any (·.status.isActive) = false →
        (s'.batchesOf id).any (·.status.isActive) = false)
  | .batch id, s, s' => s.batches.get? id = none → s'.batches.get? id = none

/-- A series keeps its key. -/
def Keeps (s s' : RawIngestionStore) : Prop :=
  ∀ id r, s.series.get? id = some r → ∃ r', s'.series.get? id = some r' ∧ r'.key = r.key

variable {s s' : RawIngestionStore} {key : AllocateRawIngestionBatchInput}
  {r : RawIngestionSeries} {batch : RawIngestionBatch} {id : Uuid}

theorem Same.refl (l : RawIngestionLock) (s : RawIngestionStore) : Same l s s := by
  cases l with
  | seriesKey key => exact rfl
  | series id => exact ⟨rfl, rfl, fun h => h⟩
  | batch id => exact fun h => h

theorem Same.trans {l : RawIngestionLock} {s'' : RawIngestionStore} (h : Same l s s')
    (h' : Same l s' s'') : Same l s s'' := by
  cases l with
  | seriesKey key => exact Eq.trans h h'
  | series id =>
      obtain ⟨hrow, hnumbers, hactive⟩ := h
      obtain ⟨hrow', hnumbers', hactive'⟩ := h'
      exact ⟨hrow.trans hrow', hnumbers.trans hnumbers', fun hnone => hactive' (hactive hnone)⟩
  | batch id => exact fun hnone => h' (h hnone)

theorem Keeps.refl (s : RawIngestionStore) : s.Keeps s := fun _ r hr => ⟨r, hr, rfl⟩

theorem Keeps.trans {s'' : RawIngestionStore} (h : s.Keeps s') (h' : s'.Keeps s'') :
    s.Keeps s'' := by
  intro id r hr
  obtain ⟨r', hr', hkey⟩ := h id r hr
  obtain ⟨r'', hr'', hkey'⟩ := h' id r' hr'
  exact ⟨r'', hr'', hkey'.trans hkey⟩

/-- The empty tables. -/
theorem numbered_empty : Numbered ⟨.empty, .empty⟩ where
  keys hr := nomatch hr
  numbers hr := nomatch hr
  owned hbatch := nomatch hbatch
  active _ := Nat.zero_le _

/-! ## Lookup -/

theorem seriesWith?_eq_some (h : s.seriesWith? key = some r) :
    s.series.get? r.id = some r ∧ r.key = key :=
  ⟨Table.get?_of_mem (List.mem_of_find?_eq_some h), by simpa using List.find?_some h⟩

theorem seriesWith?_eq_none :
    s.seriesWith? key = none ↔ ∀ r ∈ s.series.rows, r.key ≠ key := by
  simp [seriesWith?, List.find?_eq_none]

/-- The key determines the series, so a lookup by key and one by id agree. -/
theorem Numbered.seriesWith? (hs : s.Numbered) {i : Uuid} :
    (s.seriesWith? key).map (·.id) = some i ↔
      ∃ row, s.series.get? i = some row ∧ row.key = key := by
  rw [Option.map_eq_some_iff]
  constructor
  · rintro ⟨row, hrow, rfl⟩
    exact ⟨row, seriesWith?_eq_some hrow⟩
  · rintro ⟨row, hrow, hkey⟩
    cases hfind : s.seriesWith? key with
    | none => exact absurd hkey (seriesWith?_eq_none.mp hfind row (Table.get?_mem hrow))
    | some row' =>
        obtain ⟨hrow', hkey'⟩ := seriesWith?_eq_some hfind
        obtain rfl := hs.keys (Table.get?_mem hrow') (Table.get?_mem hrow) (hkey'.trans hkey.symm)
        exact ⟨row', rfl, Table.get?_key hrow⟩

theorem mem_batchesOf : batch ∈ s.batchesOf id ↔
    batch ∈ s.batches.rows ∧ batch.ingestionSeriesId = id := by
  rw [batchesOf, Table.mem_select, decide_eq_true_eq]

/-! ## Moves of batches -/

theorem Moves.batchesOf (h : s.Moves s') (id : Uuid) :
    ∃ move : RawIngestionBatch → RawIngestionBatch, s'.batchesOf id = (s.batchesOf id).map move
      ∧ (∀ batch, (move batch).batchSequence = batch.batchSequence)
      ∧ ∀ batch, (move batch).status.isActive = true → batch.status.isActive = true := by
  obtain ⟨move, batches, hid, hseries, hsequence, hstatus, hrows⟩ := h
  refine ⟨move, Table.select_of_rows_map (fun batch => ?_) hrows, hsequence, hstatus⟩
  rw [hseries]

theorem Moves.series (h : s.Moves s') : s'.series = s.series := by
  cases h
  rfl

/-- A move neither renumbers batches nor activates one. -/
theorem Moves.numbered (h : s.Moves s') (hs : s.Numbered) : s'.Numbered where
  keys := by
    rw [h.series]
    exact hs.keys
  numbers := by
    intro id r hr
    rw [h.series] at hr
    obtain ⟨move, hmove, hsequence, -⟩ := h.batchesOf id
    rw [hmove, List.map_map, ← hs.numbers hr]
    exact List.map_congr_left fun batch _ => hsequence batch
  owned := by
    intro batch hbatch
    rw [h.series]
    cases h with
    | intro move batches hid hseries hsequence hstatus hrows =>
        rw [hrows] at hbatch
        obtain ⟨batch, hmem, rfl⟩ := List.mem_map.mp hbatch
        rw [hseries]
        exact hs.owned hmem
  active := by
    intro id
    obtain ⟨move, hmove, -, hstatus⟩ := h.batchesOf id
    rw [hmove, List.filter_map, List.length_map]
    refine (List.Sublist.length_le ?_).trans (hs.active id)
    exact List.monotone_filter_right _ fun batch => hstatus batch

theorem Moves.same (h : s.Moves s') (l : RawIngestionLock) : Same l s s' := by
  cases l with
  | seriesKey key =>
      show Option.map _ (s.series.rows.find? _) = Option.map _ (s'.series.rows.find? _)
      rw [h.series]
  | series id =>
      obtain ⟨move, hmove, hsequence, hstatus⟩ := h.batchesOf id
      refine ⟨by rw [h.series], ?_, fun hnone => ?_⟩
      · rw [hmove, List.map_map]
        exact List.map_congr_left fun batch _ => (hsequence batch).symm
      · rw [hmove, List.any_eq_false]
        intro batch hbatch hactive
        obtain ⟨batch, hmem, rfl⟩ := List.mem_map.mp hbatch
        exact List.any_eq_false.mp hnone batch hmem (hstatus batch hactive)
  | batch id =>
      intro hnone
      cases h with
      | intro move batches hid hseries hsequence hstatus hrows =>
          have hget : batches.get? id = (s.batches.get? id).map move :=
            Table.get?_of_rows_map hid hrows
          show batches.get? id = none
          rw [hget, hnone]
          rfl

/-! ## One allocation -/

/-- What the first statement of an allocation has done. -/
inductive Allocates (s : RawIngestionStore) (L : List RawIngestionLock) :
    RawIngestionSeries → RawIngestionWrite → Prop
  | bumped (old : RawIngestionSeries) : s.series.get? old.id = some old → .series old.id ∈ L →
      Allocates s L old.bumped (.putSeries old.bumped)
  | inserted (new : RawIngestionSeries) : s.series.get? new.id = none →
      s.seriesWith? new.key = none → new.lastBatchSequence = 1 → .series new.id ∈ L →
      .seriesKey new.key ∈ L → Allocates s L new (.insertSeries new)

/-- What the second one has. -/
structure Appends (s : RawIngestionStore) (L : List RawIngestionLock) (r : RawIngestionSeries)
    (batch : RawIngestionBatch) : Prop where
  fresh : s.batches.get? batch.id = none
  series : batch.ingestionSeriesId = r.id
  sequence : batch.batchSequence = r.lastBatchSequence
  idle : (s.batchesOf r.id).any (·.status.isActive) = false
  held : .batch batch.id ∈ L

section Allocation

variable {L : List RawIngestionLock} {u : RawIngestionWrite} {r' : RawIngestionSeries}

theorem Allocates.batches (h : s.Allocates L r u) : (s.apply u).batches = s.batches := by
  cases h <;> rfl

/-- Only the row of the allocated series changes. -/
theorem Allocates.get? (h : s.Allocates L r u) (id : Uuid) :
    (s.apply u).series.get? id = if r.id = id then some r else s.series.get? id := by
  cases h with
  | bumped old hold _ =>
      show (s.series.put old.bumped).get? id = _
      rw [Table.get?_put]
      split
      · rename_i hid
        obtain rfl : old.id = id := hid
        rw [hold]
        rfl
      · rfl
  | inserted _ hnew _ _ _ _ => exact Table.get?_insert hnew

theorem Allocates.held (h : s.Allocates L r u) : .series r.id ∈ L := by
  cases h <;> assumption

theorem Allocates.mono {L' : List RawIngestionLock} (h : s.Allocates L r u)
    (hL : ∀ l ∈ L, l ∈ L') : s.Allocates L' r u := by
  cases h with
  | bumped old hold hheld => exact .bumped old hold (hL _ hheld)
  | inserted _ hnew hkey hlast hheld hheld' =>
      exact .inserted r hnew hkey hlast (hL _ hheld) (hL _ hheld')

/-- The row that has the key, before and after, is this one. -/
theorem Allocates.key_iff (h : s.Allocates L r u) (hs : s.Numbered) (hr' : s.series.get? id = some r') :
    r'.key = r.key ↔ id = r.id := by
  cases h with
  | bumped old hold _ =>
      constructor
      · intro hkey
        obtain rfl := hs.keys (Table.get?_mem hr') (Table.get?_mem hold) hkey
        exact (Table.get?_key hr').symm
      · rintro rfl
        cases hr'.symm.trans hold
        rfl
  | inserted _ hnew hkey _ _ _ =>
      refine iff_of_false (seriesWith?_eq_none.mp hkey r' (Table.get?_mem hr')) ?_
      rintro rfl
      cases hnew.symm.trans hr'

/-- The numbers in use are those before the new one. -/
theorem Allocates.numbers (h : s.Allocates L r u) (hs : s.Numbered) : ∃ n,
    r.lastBatchSequence = n + 1
      ∧ (s.batchesOf r.id).map (·.batchSequence) = List.range' 1 n := by
  cases h with
  | bumped old hold _ => exact ⟨_, rfl, hs.numbers hold⟩
  | inserted _ hnew _ hlast _ _ =>
      refine ⟨0, hlast, ?_⟩
      rw [List.map_eq_nil_iff.mpr]
      · rfl
      · refine List.eq_nil_iff_forall_not_mem.mpr fun batch hmem => ?_
        obtain ⟨hrows, hseries⟩ := mem_batchesOf.mp hmem
        exact hs.owned hrows (hseries ▸ hnew)

/-- The batch is the last one of its series, and no other series gets it. -/
theorem Appends.batchesOf {batch : RawIngestionBatch} (h : s.Appends L r batch) (id : Uuid) :
    (s.apply (.insertBatch batch)).batchesOf id
      = if r.id = id then s.batchesOf id ++ [batch] else s.batchesOf id := by
  show (s.batches.insert batch).select _ = _
  split
  · rename_i hid
    rw [Table.select_insert h.fresh, List.filter_cons_of_pos (by simp [h.series, hid])]
    rfl
  · rename_i hid
    exact Table.select_insert_of_not (by simp [h.series, hid])

/-! ### The tables after it commits -/

variable {batch : RawIngestionBatch} (h : s.Allocates L r u) (hb : s.Appends L r batch)

include h

/-- No series loses its key. -/
theorem Allocates.keeps (hs : s.Numbered) :
    s.Keeps ((s.apply u).apply (.insertBatch batch)) := by
  intro id row hrow
  show ∃ row', (s.apply u).series.get? id = some row' ∧ row'.key = row.key
  rw [h.get?]
  split
  · rename_i hid
    exact ⟨r, rfl, ((h.key_iff hs hrow).mpr hid.symm).symm⟩
  · exact ⟨row, hrow, rfl⟩

include hb

theorem Allocates.batchesOf (id : Uuid) :
    ((s.apply u).apply (.insertBatch batch)).batchesOf id
      = if r.id = id then s.batchesOf id ++ [batch] else s.batchesOf id := by
  rw [← hb.batchesOf id]
  show ((s.apply u).batches.insert batch).select _ = (s.batches.insert batch).select _
  rw [h.batches]

/-- A counter raised by one, with a batch of that number behind the others. -/
theorem Allocates.numbered (hs : s.Numbered) :
    ((s.apply u).apply (.insertBatch batch)).Numbered where
  keys := by
    intro a b ha hb' hkey
    have hrow : ∀ {x}, x ∈ (s.apply u).series.rows →
        x = r ∨ x.id ≠ r.id ∧ s.series.get? x.id = some x := by
      intro x hx
      have hget := h.get? x.id
      rw [Table.get?_of_mem hx] at hget
      split at hget
      · exact .inl (Option.some.inj hget)
      · rename_i hne
        exact .inr ⟨Ne.symm hne, hget.symm⟩
    rcases hrow ha with rfl | ⟨hne, ha⟩
    · rcases hrow hb' with rfl | ⟨hne, hb'⟩
      · rfl
      · exact absurd ((h.key_iff hs hb').mp hkey.symm) hne
    · rcases hrow hb' with rfl | ⟨-, hb'⟩
      · exact absurd ((h.key_iff hs ha).mp hkey) hne
      · exact hs.keys (Table.get?_mem ha) (Table.get?_mem hb') hkey
  numbers := by
    intro id row hrow
    have hget : (if r.id = id then some r else s.series.get? id) = some row := h.get? id ▸ hrow
    rw [h.batchesOf hb]
    split
    · rename_i hid
      rw [if_pos hid] at hget
      cases hget
      obtain ⟨n, hlast, hnumbers⟩ := h.numbers hs
      rw [← hid, List.map_append, hnumbers, hlast, List.range'_concat]
      simp [hb.sequence, hlast, Nat.add_comm]
    · rename_i hid
      rw [if_neg hid] at hget
      exact hs.numbers hget
  owned := by
    intro x hx
    show (s.apply u).series.get? _ ≠ none
    rw [h.get?]
    split
    · exact Option.some_ne_none r
    · rename_i hne
      have hx : x ∈ ((s.apply u).batches.insert batch).rows := hx
      rw [h.batches, Table.mem_insert hb.fresh] at hx
      rcases hx with hx | rfl
      · exact hs.owned hx
      · exact absurd hb.series.symm hne
  active := by
    intro id
    rw [h.batchesOf hb]
    split
    · rename_i hid
      rw [← hid, List.filter_append, List.length_append,
        List.filter_eq_nil_iff.mpr (List.any_eq_false.mp hb.idle), List.length_nil, Nat.zero_add]
      exact List.length_filter_le _ [batch]
    · exact hs.active id

/-- What others have locked has not changed. -/
theorem Allocates.same (hs : s.Numbered) {l : RawIngestionLock} (hl : l ∉ L) :
    Same l s ((s.apply u).apply (.insertBatch batch)) := by
  cases l with
  | seriesKey key =>
      refine Option.ext fun i => ?_
      rw [hs.seriesWith?, (h.numbered hb hs).seriesWith?]
      show _ ↔ ∃ row, (s.apply u).series.get? i = some row ∧ row.key = key
      rw [h.get?]
      split
      · rename_i hi
        constructor
        · rintro ⟨row, hrow, rfl⟩
          exact ⟨r, rfl, ((h.key_iff hs hrow).mpr hi.symm).symm⟩
        · rintro ⟨row, hrow, rfl⟩
          cases hrow
          cases h with
          | bumped old hold _ => exact ⟨old, hi ▸ hold, rfl⟩
          | inserted _ _ _ _ _ hkey => exact absurd hkey hl
      · exact Iff.rfl
  | series id =>
      have hid : r.id ≠ id := fun hid => hl (hid ▸ h.held)
      refine ⟨?_, ?_, ?_⟩
      · exact ((h.get? id).trans (if_neg hid)).symm
      · rw [h.batchesOf hb, if_neg hid]
      · rw [h.batchesOf hb, if_neg hid]
        exact fun hnone => hnone
  | batch id =>
      intro hnone
      have hid : batch.id ≠ id := fun hid => hl (hid ▸ hb.held)
      show ((s.apply u).batches.insert batch).get? id = none
      rw [h.batches, Table.get?_insert hb.fresh, if_neg hid]
      exact hnone

end Allocation

end RawIngestionStore

end CostEngine
