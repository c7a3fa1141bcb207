import CostEngine.System.Moves
import CostEngine.Versioned.Catalogue

/-! # The catalogue of a store

What the rows say of the series: the versions of each identity in the order they were
created, how far each of them is, and which versions its snapshot names. -/

namespace CostEngine

open Relational (Table)
open Versioned (Inputs Current Ended Series Catalogue)

/-- A version in a catalogue: where it is, and what it is built from. -/
abbrev Entry := DatasetVersionStatus × Option (Inputs SeriesIdentity)

namespace Versioned

def Current.entry : Current SeriesIdentity → Entry
  | .draft => (.draft, none)
  | .building inputs => (.building, some inputs)
  | .validating inputs => (.validating, some inputs)

def Ended.entry : Ended SeriesIdentity → Entry
  | .published inputs => (.published, some inputs)
  | .rejected inputs => (.rejected, some inputs)
  | .abandoned inputs => (.abandoned, inputs)

def Series.entries (s : Series SeriesIdentity) : List Entry :=
  s.ended.map (·.entry) ++ s.current.toList.map (·.entry)

theorem Current.isActive (x : Current SeriesIdentity) : x.entry.1.isActive = true := by
  cases x <;> rfl

theorem Ended.isActive (x : Ended SeriesIdentity) : x.entry.1.isActive = false := by
  cases x <;> rfl

/-- A version in progress by its status. -/
theorem Current.of_entry {x : Current SeriesIdentity} {status : DatasetVersionStatus}
    {inputs : Option (Inputs SeriesIdentity)} (h : x.entry = (status, inputs)) : match status with
      | .draft => x = .draft ∧ inputs = none
      | .building => ∃ i, x = .building i ∧ inputs = some i
      | .validating => ∃ i, x = .validating i ∧ inputs = some i
      | _ => False := by
  cases x with
  | draft => cases h; exact ⟨rfl, rfl⟩
  | building i => cases h; exact ⟨i, rfl, rfl⟩
  | validating i => cases h; exact ⟨i, rfl, rfl⟩

theorem Current.entry_injective : Function.Injective Current.entry := by
  intro x y h
  cases x <;> cases y <;> first | rfl | (cases h; rfl) | cases h

theorem Ended.entry_injective : Function.Injective Ended.entry := by
  intro x y h
  cases x <;> cases y <;> first | rfl | (cases h; rfl) | cases h

namespace Series

variable {s s' : Series SeriesIdentity} {e : Entry}

theorem map_entries (s : Series SeriesIdentity) : s.entries.map Prod.snd = s.builds := by
  rw [entries, builds, List.map_append, List.map_map, List.map_map]
  congr 1
  · exact List.map_congr_left fun x _ => (by cases x <;> rfl)
  · exact List.map_congr_left fun x _ => (by cases x <;> rfl)

theorem entries_ended {l : List (Ended SeriesIdentity)} {x : Ended SeriesIdentity} :
    entries ⟨l ++ [x], none⟩ = l.map (·.entry) ++ [x.entry] := by
  simp [entries]

theorem current_of_active (he : e ∈ s.entries) (hactive : e.1.isActive = true) :
    ∃ x, s.current = some x ∧ x.entry = e ∧ s.entries = s.ended.map (·.entry) ++ [e] := by
  rcases List.mem_append.mp he with he | he
  · obtain ⟨x, -, rfl⟩ := List.mem_map.mp he
    rw [x.isActive] at hactive
    cases hactive
  · obtain ⟨x, hx, rfl⟩ := List.mem_map.mp he
    have hx : s.current = some x := Option.mem_toList.mp hx
    exact ⟨x, hx, rfl, by rw [entries, hx]; rfl⟩

theorem current_eq_none (h : ∀ e ∈ s.entries, e.1.isActive = false) : s.current = none := by
  cases hx : s.current with
  | none => rfl
  | some x =>
      have := h x.entry (List.mem_append_right _ (by simp [hx]))
      rw [x.isActive] at this
      cases this

/-- A series is known by its entries. -/
theorem entries_injective : Function.Injective Series.entries := by
  rintro ⟨ended, current⟩ ⟨ended', current'⟩ h
  have hparts : ∀ (l : List (Ended SeriesIdentity)) (x : Option (Current SeriesIdentity)),
      (entries ⟨l, x⟩).filter (!·.1.isActive) = l.map (·.entry)
        ∧ (entries ⟨l, x⟩).filter (·.1.isActive) = x.toList.map (·.entry) := by
    intro l x
    rw [entries, List.filter_append, List.filter_append]
    have hl : ∀ e ∈ l.map (·.entry), e.1.isActive = false := by
      simp only [List.mem_map]
      rintro e ⟨y, -, rfl⟩
      exact y.isActive
    have hx : ∀ e ∈ x.toList.map (·.entry), e.1.isActive = true := by
      simp only [List.mem_map]
      rintro e ⟨y, -, rfl⟩
      exact y.isActive
    constructor
    · rw [List.filter_eq_self.mpr fun e he => by simp [hl e he],
        List.filter_eq_nil_iff.mpr fun e he => by simp [hx e he], List.append_nil]
    · rw [List.filter_eq_nil_iff.mpr fun e he => by simp [hl e he],
        List.filter_eq_self.mpr fun e he => by simp [hx e he], List.nil_append]
  obtain ⟨h₁, h₂⟩ := hparts ended current
  obtain ⟨h₁', h₂'⟩ := hparts ended' current'
  rw [h] at h₁ h₂
  have hended := List.map_injective_iff.mpr Ended.entry_injective (h₁.symm.trans h₁')
  have hcurrent := List.map_injective_iff.mpr Current.entry_injective (h₂.symm.trans h₂')
  rw [hended]
  congr 1
  cases current <;> cases current' <;> first | rfl | (cases hcurrent; rfl) | cases hcurrent

end Series

end Versioned

/-! ## The history of a series -/

namespace Store

variable (s : Store)

/-- The version of each series that the snapshot of the version names. -/
def inputsOf (id : Uuid) : Option (Inputs SeriesIdentity) :=
  (s.snapshotsOf id).head?.map fun b identity =>
    ((s.frozenDependencies b.id).find? (·.identity = identity)).map (·.version)

def entryOf (v : DatasetVersion) : Entry := (v.status, s.inputsOf v.id)

def identityOf (v : DatasetVersion) : Option SeriesIdentity :=
  (s.datasetSeries.get? v.datasetSeriesId).map (·.identity)

def versionsWith (identity : SeriesIdentity) : List DatasetVersion :=
  s.datasetVersions.select fun v => s.identityOf v = some identity

def history (identity : SeriesIdentity) : List Entry :=
  (s.versionsWith identity).map s.entryOf

/-- The rows say of every series what the catalogue does. -/
def Shows (c : Catalogue SeriesIdentity) : Prop :=
  ∀ identity, s.history identity = (c identity).entries

variable {s} {s' : Store} {v v' : DatasetVersion} {identity : SeriesIdentity}
variable {c c' : Catalogue SeriesIdentity}

theorem Shows.unique (h : s.Shows c) (h' : s.Shows c') : c' = c :=
  funext fun identity => Series.entries_injective ((h' identity).symm.trans (h identity))

theorem mem_versionsWith : v ∈ s.versionsWith identity ↔
    s.datasetVersions.get? v.id = some v ∧ s.identityOf v = some identity := by
  rw [versionsWith, Table.mem_select, Table.mem_rows, decide_eq_true_eq]

theorem versionsWith_eq (h : s.SeriesOk) {r : DatasetSeries} (href : s.References)
    (hr : s.datasetSeries.get? r.id = some r) :
    s.versionsWith r.identity = s.versionsOf r.id := by
  refine List.filter_congr fun v hv => ?_
  obtain ⟨r', hr', -⟩ := href.version _ v (Table.get?_of_mem hv)
  rw [identityOf, hr', decide_eq_decide]
  constructor
  · intro hident
    have hid : r'.id = v.datasetSeriesId := Table.get?_key hr'
    rw [← hid]
    exact h.identity _ _ r' r (hid.symm ▸ hr') hr (Option.some.inj hident)
  · intro hid
    rw [hid, hr] at hr'
    exact congrArg (some ·.identity) (Option.some.inj hr').symm

/-- A version stays in its series, and the series keeps its identity. -/
theorem identityOf_grows (hg : s.Grows s') (href : s.References)
    (hv : s.datasetVersions.get? v.id = some v) (hsame : v'.datasetSeriesId = v.datasetSeriesId) :
    s'.identityOf v' = s.identityOf v := by
  obtain ⟨r, hr, -⟩ := href.version _ v hv
  obtain ⟨r', hr', hident⟩ := hg.seriesRow hr
  rw [identityOf, identityOf, hsame, hr, hr', Option.map_some, Option.map_some, hident]

theorem inputsOf_grows (hg : s.Grows s') (href : s.References) {id : Uuid}
    (hid : s.snapshotsOf id = [] → s'.snapshotsOf id = []) : s'.inputsOf id = s.inputsOf id := by
  unfold inputsOf
  cases hb : s.snapshotsOf id with
  | nil => rw [hid hb]; rfl
  | cons b rest =>
      have hmem : b ∈ s.snapshotsOf id := by rw [hb]; exact List.mem_cons_self
      have hfrozen := frozenDependencies_grows href hg (Table.row_ne_none (mem_snapshotsOf.mp hmem).1)
      simp only [hg.snapshotsOf id (by rw [hb]; simp), hb, List.head?_cons, Option.map_some, hfrozen]

/-! ### No version changes -/

theorem history_same (hg : s.Grows s') (href : s.References)
    (hrows : s'.datasetVersions = s.datasetVersions)
    (hinputs : ∀ id, s'.inputsOf id = s.inputsOf id) : s'.history identity = s.history identity := by
  have hversions : s'.versionsWith identity = s.versionsWith identity := by
    unfold versionsWith
    rw [hrows]
    refine List.filter_congr fun v hv => ?_
    rw [identityOf_grows hg href (Table.get?_of_mem hv) rfl]
  unfold history
  rw [hversions]
  exact List.map_congr_left fun v _ => congrArg (Prod.mk v.status) (hinputs v.id)

/-! ### A version is added -/

theorem history_insert (hg : s.Grows s') (href : s.References)
    (hrows : s'.datasetVersions = s.datasetVersions.insert v)
    (hfresh : s.datasetVersions.get? v.id = none) (hinputs : ∀ id, s'.inputsOf id = s.inputsOf id)
    (hident : s'.identityOf v = some identity) (identity' : SeriesIdentity) :
    s'.history identity' = if identity' = identity then s.history identity ++ [s.entryOf v]
      else s.history identity' := by
  have hversions : s'.versionsWith identity'
      = s.versionsWith identity' ++ if identity' = identity then [v] else [] := by
    unfold versionsWith Table.select
    rw [hrows, Table.rows_insert hfresh, List.filter_append]
    congr 1
    · refine List.filter_congr fun w hw => ?_
      rw [identityOf_grows hg href (Table.get?_of_mem hw) rfl]
    · rw [List.filter_singleton, hident]
      by_cases he : identity' = identity
      · simp [he]
      · simp [he, Ne.symm he]
  have hentry : ∀ w, s'.entryOf w = s.entryOf w := fun w =>
    congrArg (Prod.mk w.status) (hinputs w.id)
  unfold history
  rw [hversions, List.map_append, funext hentry]
  split
  · rename_i he
    rw [he]
    rfl
  · rw [List.map_nil, List.append_nil]

/-! ### A version moves -/

variable {t : Transaction}

theorem versionsWith_moved (hg : s.Grows s') (href : s.References)
    (m : MovesVersion t v v' s s') : s'.versionsWith identity
      = (s.versionsWith identity).map fun w => if w.id = v.id then v' else w := by
  unfold versionsWith Table.select
  rw [m.put]
  show (List.map (fun r => if r.id = v'.id then v' else r) s.datasetVersions.rows).filter _ = _
  rw [List.filter_map, m.columns.1]
  refine congrArg _ (List.filter_congr fun w hw => ?_)
  have hw := Table.get?_of_mem hw
  show decide (s'.identityOf (if w.id = v.id then v' else w) = _) = _
  split
  · rename_i hid
    have : w = v := Option.some.inj ((hid ▸ hw).symm.trans m.row)
    rw [this, identityOf_grows hg href m.row m.columns.2.1]
  · rw [identityOf_grows hg href hw rfl]

theorem history_moved_other (hg : s.Grows s') (href : s.References)
    (m : MovesVersion t v v' s s') (hinputs : ∀ id, id ≠ v.id → s'.inputsOf id = s.inputsOf id)
    (hident : s.identityOf v ≠ some identity) : s'.history identity = s.history identity := by
  unfold history
  rw [versionsWith_moved hg href m, List.map_map]
  refine List.map_congr_left fun w hw => ?_
  obtain ⟨hrow, hw⟩ := mem_versionsWith.mp hw
  have hne : w.id ≠ v.id := by
    intro he
    have : w = v := Option.some.inj ((he ▸ hrow).symm.trans m.row)
    exact hident (this ▸ hw)
  show s'.entryOf (if w.id = v.id then v' else w) = s.entryOf w
  rw [if_neg hne]
  exact congrArg (Prod.mk w.status) (hinputs w.id hne)

/-- The version that moves is the current one of its series. -/
theorem history_moved (hg : s.Grows s') (href : s.References)
    (m : MovesVersion t v v' s s') (hinputs : ∀ id, id ≠ v.id → s'.inputsOf id = s.inputsOf id)
    (hident : s.identityOf v = some identity) (hactive : v.status.isActive = true)
    (hshows : s.Shows c) : ∃ x, (c identity).current = some x
      ∧ x.entry = (v.status, s.inputsOf v.id)
      ∧ s'.history identity
        = (c identity).ended.map (·.entry) ++ [(v'.status, s'.inputsOf v.id)] := by
  have hv : v ∈ s.versionsWith identity := mem_versionsWith.mpr ⟨m.row, hident⟩
  have hentries : (s.versionsWith identity).map s.entryOf = (c identity).entries := hshows identity
  obtain ⟨x, hx, hxe, hentry⟩ := Series.current_of_active
    (hentries ▸ List.mem_map_of_mem hv) (show (s.entryOf v).1.isActive = true from hactive)
  refine ⟨x, hx, hxe, ?_⟩
  rw [hentry] at hentries
  obtain ⟨before, last, hsplit, hbefore, hlast⟩ := List.map_eq_append_iff.mp hentries
  obtain ⟨w, rest, rfl, hw, hrest⟩ := List.map_eq_cons_iff.mp hlast
  obtain rfl := List.map_eq_nil_iff.mp hrest
  -- No version before the last one is active.
  have hnot : v ∉ before := by
    intro hmem
    have : s.entryOf v ∈ (c identity).ended.map (·.entry) := hbefore ▸ List.mem_map_of_mem hmem
    obtain ⟨y, -, hy⟩ := List.mem_map.mp this
    have hy' := y.isActive
    rw [hy] at hy'
    rw [show (s.entryOf v).1 = v.status from rfl, hactive] at hy'
    cases hy'
  obtain rfl : v = w := by
    rw [hsplit] at hv
    rcases List.mem_append.mp hv with hv | hv
    · exact absurd hv hnot
    · exact List.mem_singleton.mp hv
  unfold history
  rw [versionsWith_moved hg href m, hsplit, List.map_append, List.map_append, List.map_singleton,
    List.map_singleton, if_pos rfl, ← hbefore, List.map_map]
  congr 1
  · refine List.map_congr_left fun u hu => ?_
    have hne : u.id ≠ v.id := by
      intro he
      have hrow : s.datasetVersions.get? u.id = some u := by
        have hmem : u ∈ s.versionsWith identity := by
          rw [hsplit]
          exact List.mem_append_left _ hu
        exact (mem_versionsWith.mp hmem).1
      have : u = v := Option.some.inj ((he ▸ hrow).symm.trans m.row)
      exact hnot (this ▸ hu)
    show s'.entryOf (if u.id = v.id then v' else u) = s.entryOf u
    rw [if_neg hne]
    exact congrArg (Prod.mk u.status) (hinputs u.id hne)
  · show [(v'.status, s'.inputsOf v'.id)] = _
    rw [m.columns.1]

/-! ### Published versions -/

theorem version_of_getElem? (h : s.SeriesOk) {r : DatasetSeries}
    (hr : s.datasetSeries.get? r.id = some r) {n : Nat} {w : DatasetVersion}
    (hw : (s.versionsOf r.id)[n]? = some w) : w.version = n + 1 := by
  have hnumber := congrArg (·[n]?) (h.numbered _ r hr)
  rw [List.getElem?_map, hw] at hnumber
  obtain ⟨hlt, he⟩ := List.getElem?_eq_some_iff.mp hnumber.symm
  rw [List.getElem_range'] at he
  have he : 1 + 1 * n = w.version := he
  omega

/-- The numbers of the published versions are those of the rows. -/
theorem published_iff (h : s.Consistent) (hshows : s.Shows c) {r : DatasetSeries}
    (hr : s.datasetSeries.get? r.id = some r) {n : Nat} : (c r.identity).Published n ↔
      ∃ w ∈ s.versionsOf r.id, w.version = n ∧ w.status = .published := by
  have hentries : (s.versionsOf r.id).map s.entryOf = (c r.identity).entries := by
    rw [← versionsWith_eq h.series h.references hr]
    exact hshows r.identity
  have hnumber := fun n w => version_of_getElem? (n := n) (w := w) h.series hr
  constructor
  · intro hp
    cases n with
    | zero => exact hp.elim
    | succ n =>
        obtain ⟨inputs, hn⟩ := hp
        have hn' : (c r.identity).entries[n]? = some (.published, some inputs) := by
          rw [Series.entries, List.getElem?_append_left, List.getElem?_map, hn]
          · rfl
          · rw [List.length_map]
            exact (List.getElem?_eq_some_iff.mp hn).1
        rw [← hentries, List.getElem?_map] at hn'
        obtain ⟨w, hw, hwe⟩ := Option.map_eq_some_iff.mp hn'
        exact ⟨w, List.mem_of_getElem? hw, hnumber n w hw, congrArg Prod.fst hwe⟩
  · rintro ⟨w, hw, rfl, hstatus⟩
    obtain ⟨n, hn⟩ := List.mem_iff_getElem?.mp hw
    rw [hnumber n w hn]
    have hn' : (c r.identity).entries[n]? = some (s.entryOf w) := by
      rw [← hentries, List.getElem?_map, hn]
      rfl
    rw [Series.entries, List.getElem?_append] at hn'
    split at hn'
    · rw [List.getElem?_map] at hn'
      obtain ⟨y, hy, hye⟩ := Option.map_eq_some_iff.mp hn'
      have hy' : y.entry.1 = .published := by rw [hye]; exact hstatus
      cases y with
      | published inputs => exact ⟨inputs, hy⟩
      | rejected inputs => cases hy'
      | abandoned inputs => cases hy'
    · have hmem := List.mem_of_getElem? hn'
      obtain ⟨y, -, hye⟩ := List.mem_map.mp hmem
      have hactive := y.isActive
      rw [hye, show (s.entryOf w).1 = w.status from rfl, hstatus] at hactive
      cases hactive

theorem builtFrom_of_inputsOf (h : s.Consistent) (hshows : s.Shows c) {r : DatasetSeries}
    (hr : s.datasetSeries.get? r.id = some r) (hv : v ∈ s.versionsOf r.id)
    {inputs : Inputs SeriesIdentity} (hinputs : s.inputsOf v.id = some inputs) :
    (c r.identity).BuiltFrom v.version inputs := by
  have hentries : (s.versionsOf r.id).map s.entryOf = (c r.identity).entries := by
    rw [← versionsWith_eq h.series h.references hr]
    exact hshows r.identity
  obtain ⟨n, hn⟩ := List.mem_iff_getElem?.mp hv
  rw [version_of_getElem? h.series hr hn]
  show (c r.identity).builds[n]? = some (some inputs)
  rw [← Series.map_entries, ← hentries, List.getElem?_map, List.getElem?_map, hn, ← hinputs]
  rfl

theorem latest_of_latestVersion (h : s.Consistent) (hshows : s.Shows c) {r : DatasetSeries}
    (hr : s.datasetSeries.get? r.id = some r) {id : Uuid} (hlatest : s.LatestVersion r.id id)
    (hv : s.datasetVersions.get? id = some v) : (c r.identity).Latest v.version := by
  obtain ⟨w, hw, howner, hstatus, hmax⟩ := hlatest
  obtain rfl := Option.some.inj (hv.symm.trans hw)
  have hid : v.id = id := Table.get?_key hv
  refine ⟨(published_iff h hshows hr).mpr ⟨v, mem_versionsOf.mpr ⟨hid.symm ▸ hv, howner⟩, rfl,
    hstatus⟩, fun m hm => ?_⟩
  obtain ⟨w', hw', rfl, hstatus'⟩ := (published_iff h hshows hr).mp hm
  exact hmax w' hw' hstatus'

end Store

end CostEngine
