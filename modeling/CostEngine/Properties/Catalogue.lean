import CostEngine.Properties.Freezing
import CostEngine.Properties.FrozenInputs
import CostEngine.Properties.Lineage
import CostEngine.System.History

/-! # The store refines a catalogue of versions

Every commit of the services is one move of a catalogue or none, whatever the transactions
do meanwhile, so what holds of catalogues holds of the rows. -/

namespace CostEngine

open Relational (Table)
open Relation (ReflTransGen)
open Concurrency (play)
open Versioned (Inputs Move Series Catalogue)

variable {honours : Prop} {st st' : System} {c : Catalogue SeriesIdentity}

/-! ## Moves of the transactions -/

/-- The version `v` is a row of the series that `k` names. -/
def Store.InCatalogue (s : Store) (v : DatasetVersion) (k : SeriesIdentity) : Prop :=
  s.datasetVersions.get? v.id = some v ∧ s.identityOf v = some k

/-- The move that is the business of a transaction, which takes the rows from `s` to `s'`. A
first Run builds the version of its job, from what the snapshot of the version names then. -/
inductive Transaction.Makes (s s' : Store) : Transaction → Move SeriesIdentity → Prop
  | draft (input : SeriesIdentity) : Makes s s' (.createDatasetVersion input) (.draft input)
  | build (j : CalculationJob) (v : DatasetVersion) (k : SeriesIdentity)
      (inputs : Inputs SeriesIdentity) : s.calculationJobs.get? j.id = some j →
      j.outputDatasetVersionId = v.id → s.InCatalogue v k → s'.inputsOf v.id = some inputs →
      Makes s s' (.prepareCalculationJobRun j.id) (.build k inputs)
  | submit (v : DatasetVersion) (k : SeriesIdentity) : s.InCatalogue v k →
      Makes s s' (.submitDatasetValidation v.id) (.submit k)
  | publish (v : DatasetVersion) (seriesId : Uuid) (k : SeriesIdentity) : s.InCatalogue v k →
      Makes s s' (.decideValidatedDataset v.id seriesId .published) (.publish k)
  | reject (v : DatasetVersion) (seriesId : Uuid) (k : SeriesIdentity) : s.InCatalogue v k →
      Makes s s' (.decideValidatedDataset v.id seriesId .rejected) (.reject k)
  | abandon (v : DatasetVersion) (seriesId : Uuid) (k : SeriesIdentity) : s.InCatalogue v k →
      Makes s s' (.abandonDatasetVersion v.id seriesId) (.abandon k)

/-! ## What the snapshots say -/

/-- Only a freeze changes what a version is built from. -/
theorem Reachable.inputsOf_step (h : Reachable honours st) (hs : (machine honours).Step st st')
    {id : Uuid} (hf : ¬ st.shared.db.Freezes st'.shared.db id) :
    st'.shared.db.inputsOf id = st.shared.db.inputsOf id := by
  have hg := (h.grows (.step (.refl _) hs)).db
  refine Store.inputsOf_grows hg h.consistent.references fun hnone => ?_
  refine List.eq_nil_iff_forall_not_mem.mpr fun b hb => hf (h.freezes_of_snapshot hs hb ?_)
  obtain ⟨hrow, howner⟩ := Store.mem_snapshotsOf.mp hb
  cases hold : st.shared.db.datasetBuildSnapshots.get? b.id with
  | none => rfl
  | some b' =>
      obtain rfl := Option.some.inj (hrow.symm.trans (hg.snapshots _ b' hold))
      have : b ∈ st.shared.db.snapshotsOf id := Store.mem_snapshotsOf.mpr ⟨hold, howner⟩
      rw [hnone] at this
      cases this

/-- A freeze names the newest published versions. -/
theorem Reachable.inputsOf_freeze (h : Reachable honours st) (hs : (machine honours).Step st st')
    {id : Uuid} (hf : st.shared.db.Freezes st'.shared.db id)
    {c' : Catalogue SeriesIdentity} (hshows : st'.shared.db.Shows c') :
    ∃ inputs, st'.shared.db.inputsOf id = some inputs
      ∧ ∀ u n, inputs u = some n → (c' u).Latest n := by
  obtain ⟨v, r, b, -, -, hlatest⟩ := h.freezesLatest hs id hf
  unfold Store.inputsOf
  rw [hlatest.snapshot]
  refine ⟨_, rfl, fun u n hn => ?_⟩
  obtain ⟨f, hfind, rfl⟩ := Option.map_eq_some_iff.mp hn
  have hident : f.identity = u := by simpa using List.find?_some hfind
  obtain ⟨d, hd, hseries, hversion, ds, dv, hds, hdsident, hdv, hnumber⟩ :=
    Store.mem_frozenDependencies (List.mem_of_find?_eq_some hfind)
  obtain ⟨-, -, -, -, hnewest⟩ := hlatest.rows d hd
  have hid : ds.id = f.datasetSeriesId := Table.get?_key hds
  rw [hseries, hversion, ← hid] at hnewest
  rw [← hident, ← hdsident, ← hnumber]
  exact Store.latest_of_latestVersion (h.step hs).consistent hshows (hid.symm ▸ hds) hnewest hdv

/-! ## One step -/

/-- A new version is a draft at the end of its series. -/
theorem Reachable.creates (h : Reachable honours st) (hs : (machine honours).Step st st')
    (hshows : st.shared.db.Shows c) {i : Nat} {input : SeriesIdentity}
    {r : CreateDatasetVersionResult} {ws : List Write}
    (hc : Commits i (.createDatasetVersion input) r ws st st') :
    ∃ c', Versioned.Step c (.draft input) c' ∧ st'.shared.db.Shows c' := by
  obtain ⟨req, log, k, a, hi, hr, rfl, hst⟩ := hc
  obtain ⟨last, hspec⟩ := h.commits hi hr
  obtain ⟨series, v, jobs, pre, hcreated⟩ := CreateSpec.created hspec.ensures r rfl
  have hdb : st'.shared.db = a.writes.foldl Store.apply st.shared.db := by rw [hst]
  have hconsistent := (h.step hs).consistent
  have hg := (h.grows (.step (.refl _) hs)).db
  have href := h.consistent.references
  -- The rows of the series: those that were there, and the new version.
  have hd := hcreated.draft
  obtain ⟨rows₀, hrows₀⟩ := hcreated.series.others st.shared.db
  rw [hrows₀] at hd
  have hfresh : st.shared.db.datasetVersions.get? v.id = none := hd.fresh
  obtain ⟨rows, hrows⟩ := hcreated.store
  have hversions : st'.shared.db.datasetVersions = st.shared.db.datasetVersions.insert v := by
    rw [hdb]
    exact congrArg Store.datasetVersions hrows
  have hinputs : ∀ id, st'.shared.db.inputsOf id = st.shared.db.inputsOf id := by
    intro id
    refine h.inputsOf_step hs fun hf => ?_
    rw [hdb] at hf
    exact hcreated.not_freezes hf
  obtain ⟨r', hr', hident⟩ : ∃ r', st'.shared.db.datasetSeries.get? series.id = some r'
      ∧ r'.identity = input := by
    have hwrites : st'.shared.db.datasetSeries = (pre.foldl Store.apply st.shared.db).datasetSeries.put
        series.allocated := by
      have hrest := Store.foldl_creation series v jobs (pre.foldl Store.apply st.shared.db)
      rw [← List.foldl_append, ← hcreated.writes] at hrest
      rw [hdb]
      exact congrArg Store.datasetSeries hrest
    refine ⟨series.allocated, ?_, hcreated.series.identity⟩
    rw [hwrites, Table.get?_put, show series.allocated.id = series.id from rfl, if_pos rfl,
      hcreated.draft.series]
    rfl
  have hown : st'.shared.db.identityOf v = some input := by
    rw [Store.identityOf, hd.owner, hr', Option.map_some, hident]
  have hhistory := Store.history_insert hg href hversions hfresh hinputs hown
  -- No version of the series is active.
  have hidle : (c input).current = none := by
    refine Series.current_eq_none fun e he => ?_
    rw [← hshows input] at he
    obtain ⟨w, hw, rfl⟩ := List.mem_map.mp he
    obtain ⟨hrow, hwident⟩ := Store.mem_versionsWith.mp hw
    refine hd.inactive w (Store.mem_versionsOf.mpr ⟨hrow, ?_⟩)
    obtain ⟨rw, hrw, -⟩ := href.version _ w hrow
    rw [Store.identityOf, hrw] at hwident
    obtain ⟨rw', hrw', hkept⟩ := hg.seriesRow hrw
    refine hconsistent.series.identity _ _ rw' r' hrw' hr' ?_
    rw [hkept, hident]
    exact Option.some.inj hwident
  refine ⟨Function.update c input ⟨(c input).ended, some .draft⟩,
    ⟨_, .draft input hidle, rfl⟩, fun identity => ?_⟩
  rw [hhistory identity]
  by_cases he : identity = input
  · subst he
    have hnone : st.shared.db.inputsOf v.id = none := by
      rw [Store.inputsOf, href.snapshotsOf_eq_nil hfresh]
      rfl
    rw [if_pos rfl, Function.update_self, hshows identity, Store.entryOf, hd.status, hnone]
    show Series.entries _ ++ _ = (c identity).ended.map _ ++ [(.draft, none)]
    rw [Series.entries, hidle]
    simp
  · rw [if_neg he, Function.update_of_ne he]
    exact hshows identity

/-! ### A version moves -/

theorem DatasetVersionStatus.Next.isActive {old new : DatasetVersionStatus} (h : old.Next new) :
    old.isActive = true := by
  cases h <;> rfl

/-- A version that moves is the current one of its series. -/
theorem Reachable.shifts (h : Reachable honours st) (hs : (machine honours).Step st st')
    (hshows : st.shared.db.Shows c) {t : Transaction} {v v' : DatasetVersion}
    (m : MovesVersion t v v' st.shared.db st'.shared.db) :
    ∃ move c', t.Makes st.shared.db st'.shared.db move ∧ Versioned.Step c move c'
      ∧ st'.shared.db.Shows c' := by
  have hg := (h.grows (.step (.refl _) hs)).db
  have href := h.consistent.references
  obtain ⟨r, hr, -⟩ := href.version _ v m.row
  have hident : st.shared.db.identityOf v = some r.identity := by rw [Store.identityOf, hr]; rfl
  have hv' : st'.shared.db.datasetVersions.get? v.id = some v' := by
    rw [m.put, Table.get?_put, m.columns.1, if_pos rfl, m.row]
    rfl
  -- Other versions are built from what they were.
  have hinputs : ∀ id, id ≠ v.id → st'.shared.db.inputsOf id = st.shared.db.inputsOf id := by
    intro id hid
    refine h.inputsOf_step hs fun hf => hf.ne ?_
    rw [m.put, Table.get?_put, m.columns.1, if_neg (Ne.symm hid)]
  have hkept (hne : v'.status ≠ .building) :
      st'.shared.db.inputsOf v.id = st.shared.db.inputsOf v.id := by
    refine h.inputsOf_step hs fun hf => ?_
    obtain ⟨w, w', -, -, hw', hbuilding⟩ := hf
    obtain rfl := Option.some.inj (hv'.symm.trans hw')
    exact hne hbuilding
  have hactive : v.status.isActive = true := m.next.isActive
  obtain ⟨x, hx, hentry, hhistory⟩ :=
    Store.history_moved hg href m hinputs hident hactive hshows
  have hother : ∀ identity, identity ≠ r.identity →
      st'.shared.db.history identity = st.shared.db.history identity := by
    intro identity hne
    refine Store.history_moved_other hg href m hinputs fun he => hne ?_
    exact Option.some.inj (he.symm.trans hident)
  -- The series with its new end, and the catalogue with that series.
  have hafter : ∀ new : Series SeriesIdentity, new.entries
      = (c r.identity).ended.map (·.entry) ++ [(v'.status, st'.shared.db.inputsOf v.id)] →
      st'.shared.db.Shows (Function.update c r.identity new) := by
    intro new hnew identity
    by_cases he : identity = r.identity
    · subst he
      rw [Function.update_self, hnew, hhistory]
    · rw [Function.update_of_ne he, hother identity he]
      exact hshows identity
  obtain ⟨hrow, hnext, htarget, -, hput⟩ := m
  have hlisted : st.shared.db.InCatalogue v r.identity := ⟨hrow, hident⟩
  generalize hid : v.id = id at htarget
  generalize hold : v.status = old at hnext hentry
  generalize hnew : v'.status = new at hnext htarget hafter hkept
  cases hnext with
  | freeze =>
      obtain ⟨rfl, -⟩ := Versioned.Current.of_entry hentry
      have hf : st.shared.db.Freezes st'.shared.db v.id := ⟨v, v', hrow, hold, hv', hnew⟩
      -- Which versions are the newest, the move itself does not change.
      have hinputs : ∃ inputs, st'.shared.db.inputsOf v.id = some inputs := by
        obtain ⟨_, _, b, -, -, hlatest⟩ := h.freezesLatest hs v.id hf
        rw [Store.inputsOf, hlatest.snapshot]
        exact ⟨_, rfl⟩
      obtain ⟨inputs, hinputs⟩ := hinputs
      have hshows' := hafter ⟨(c r.identity).ended, some (.building inputs)⟩ (by rw [hinputs]; rfl)
      obtain ⟨inputs', hinputs', hlatest⟩ := h.inputsOf_freeze hs hf hshows'
      obtain rfl := Option.some.inj (hinputs.symm.trans hinputs')
      cases htarget with
      | prepare j hj =>
          refine ⟨.build r.identity inputs, _, .build j v _ _ hj hid.symm hlisted hinputs,
            ⟨_, .build r.identity inputs hx fun u n hn => ?_, rfl⟩, hshows'⟩
          have hu := hlatest u n hn
          by_cases he : u = r.identity
          · subst he
            rw [Function.update_self] at hu
            exact hu
          · rwa [Function.update_of_ne he] at hu
  | submit =>
      obtain ⟨inputs, rfl, hin⟩ := Versioned.Current.of_entry hentry
      have hshows' := hafter ⟨(c r.identity).ended, some (.validating inputs)⟩
        (by rw [hkept (by decide), hin]; rfl)
      cases htarget
      subst hid
      exact ⟨.submit r.identity, _, .submit v _ hlisted, ⟨_, .submit _ inputs hx, rfl⟩, hshows'⟩
  | publish =>
      obtain ⟨inputs, rfl, hin⟩ := Versioned.Current.of_entry hentry
      have hshows' := hafter ⟨(c r.identity).ended ++ [.published inputs], none⟩
        (by rw [hkept (by decide), hin]; exact Series.entries_ended)
      cases htarget with
      | publish id seriesId =>
          subst hid
          exact ⟨.publish r.identity, _, .publish v seriesId _ hlisted,
            ⟨_, .publish _ inputs hx, rfl⟩, hshows'⟩
  | reject =>
      obtain ⟨inputs, rfl, hin⟩ := Versioned.Current.of_entry hentry
      have hshows' := hafter ⟨(c r.identity).ended ++ [.rejected inputs], none⟩
        (by rw [hkept (by decide), hin]; exact Series.entries_ended)
      cases htarget with
      | reject id seriesId =>
          subst hid
          exact ⟨.reject r.identity, _, .reject v seriesId _ hlisted,
            ⟨_, .reject _ inputs hx, rfl⟩, hshows'⟩
  | abandonDraft =>
      obtain ⟨rfl, hin⟩ := Versioned.Current.of_entry hentry
      have hshows' := hafter ⟨(c r.identity).ended ++ [.abandoned none], none⟩
        (by rw [hkept (by decide), hin]; exact Series.entries_ended)
      cases htarget with
      | abandon id seriesId =>
          subst hid
          exact ⟨.abandon r.identity, _, .abandon v seriesId _ hlisted, ⟨_, .discard _ hx, rfl⟩,
            hshows'⟩
  | abandonBuilding =>
      obtain ⟨inputs, rfl, hin⟩ := Versioned.Current.of_entry hentry
      have hshows' := hafter ⟨(c r.identity).ended ++ [.abandoned (some inputs)], none⟩
        (by rw [hkept (by decide), hin]; exact Series.entries_ended)
      cases htarget with
      | abandon id seriesId =>
          subst hid
          exact ⟨.abandon r.identity, _, .abandon v seriesId _ hlisted, ⟨_, .cancel _ inputs hx, rfl⟩,
            hshows'⟩

/-! ### Every step -/

/-- Every step is a move of the catalogue or none. -/
theorem Reachable.refines (h : Reachable honours st) (hs : (machine honours).Step st st')
    (hshows : st.shared.db.Shows c) : st'.shared.db.Shows c
      ∨ ∃ i t r ws move c', Commits i t r ws st st' ∧ t.Makes st.shared.db st'.shared.db move
        ∧ Versioned.Step c move c' ∧ st'.shared.db.Shows c' := by
  rcases h.moves hs with ⟨i, input, r, ws, hc⟩ | hsame | ⟨i, t, r, ws, v, v', hc, hm⟩
  · obtain ⟨c', hstep, hshows'⟩ := h.creates hs hshows hc
    exact .inr ⟨i, _, r, ws, .draft input, c', hc, .draft input, hstep, hshows'⟩
  · refine .inl fun identity => ?_
    rw [Store.history_same (h.grows (.step (.refl _) hs)).db h.consistent.references hsame
      fun id => h.inputsOf_step hs fun hf => hf.ne (by rw [hsame])]
    exact hshows identity
  · obtain ⟨move, c', hmakes, hstep, hshows'⟩ := h.shifts hs hshows hm
    exact .inr ⟨i, t, r, ws, move, c', hc, hmakes, hstep, hshows'⟩

theorem Reachable.catalogue (h : Reachable honours st) :
    ∃ c : Catalogue SeriesIdentity, c.Reached ∧ st.shared.db.Shows c := by
  obtain ⟨st₀, h₀, hr⟩ := h
  induction hr with
  | refl =>
      refine ⟨.empty, .refl, fun identity => ?_⟩
      cases h₀
      rfl
  | step hr hs ih =>
      obtain ⟨c, hreached, hshows⟩ := ih
      rcases Reachable.refines ⟨st₀, h₀, hr⟩ hs hshows with hsame | ⟨i, t, r, ws, move, c', -, -, hmove, hshows'⟩
      · exact ⟨c, hreached, hsame⟩
      · exact ⟨c', hreached.tail ⟨move, hmove⟩, hshows'⟩

/-! ## The properties -/

/-- **The store refines a catalogue**: the rows of every reachable state show one catalogue,
which is reached by moves alone, and every step makes one move of it, in the transaction
whose business that move is, or none. -/
theorem catalogue_refined (h : Reachable honours st) : ∃ c : Catalogue SeriesIdentity,
    c.Reached ∧ st.shared.db.Shows c ∧ (∀ c', st.shared.db.Shows c' → c' = c)
      ∧ ∀ st', (machine honours).Step st st' → st'.shared.db.Shows c
        ∨ ∃ i t r ws move c', Commits i t r ws st st' ∧ t.Makes st.shared.db st'.shared.db move
          ∧ Versioned.Step c move c' ∧ st'.shared.db.Shows c' := by
  obtain ⟨c, hreached, hshows⟩ := h.catalogue
  exact ⟨c, hreached, hshows, fun c' => hshows.unique, fun st' hs => h.refines hs hshows⟩

theorem catalogue_refined_chained : ∃ S, play (machine False) (Script.chained False)
    SystemStage.chained = some S
      ∧ SystemStage.statuses S = ([.published, .building], [.succeeded, .pending],
          [.succeeded, .dispatching])
      ∧ ∃ c : Catalogue SeriesIdentity, c.Reached ∧ S.shared.db.Shows c := by
  obtain ⟨S, hS, hp⟩ := exists_of_play (p := fun S => decide (SystemStage.statuses S
      = ([.published, .building], [.succeeded, .pending], [.succeeded, .dispatching])))
    (show (play (machine False) (Script.chained False) SystemStage.chained).any _ = true by
      decide +kernel)
  obtain ⟨c, hreached, hshows, -⟩ :=
    catalogue_refined (.of_play SystemStage.chained_initial hS)
  exact ⟨S, hS, of_decide_eq_true hp, c, hreached, hshows⟩

/-! ## Inputs never go back -/

/-- Two versions of a series, the second no older than the first. -/
def Store.Precedes (s : Store) (id id' : Uuid) : Prop :=
  ∃ v v', s.datasetVersions.get? id = some v ∧ s.datasetVersions.get? id' = some v'
    ∧ v'.datasetSeriesId = v.datasetSeriesId ∧ v.version ≤ v'.version

/-- Of no series the first inputs name a newer version than the second. -/
def NoNewer (inputs inputs' : List FrozenUpstreamDatasetVersion) : Prop :=
  ∀ f ∈ inputs, ∀ f' ∈ inputs', f'.identity = f.identity → f.version ≤ f'.version

/-! ### One snapshot a version -/

/-- A version has one snapshot at most. -/
theorem Store.Consistent.snapshotsOf_eq {s : Store} (h : s.Consistent) {id : Uuid}
    {b : DatasetBuildSnapshot} (hb : b ∈ s.snapshotsOf id) : s.snapshotsOf id = [b] := by
  obtain ⟨hrow, howner⟩ := Store.mem_snapshotsOf.mp hb
  have hversion : s.datasetVersions.get? id ≠ none := howner ▸ h.references.snapshot _ b hrow
  obtain ⟨v, hv⟩ := Option.ne_none_iff_exists'.mp hversion
  have hid : v.id = id := Table.get?_key hv
  have hunfrozen : ¬ s.Unfrozen v.id := by
    rintro ⟨hnil, -⟩
    rw [hid] at hnil
    rw [hnil] at hb
    cases hb
  have hbuild := (h.version id v hv).build
  unfold Store.Build at hbuild
  have hfrozen : s.Frozen v.id := by
    cases hs : v.status <;> simp only [hs, DatasetVersionStatus.phase] at hbuild
    · exact absurd hbuild hunfrozen
    · exact hbuild
    · exact hbuild.1
    · exact hbuild.1
    · exact hbuild.1
    · exact hbuild.1.resolve_left hunfrozen
  obtain ⟨b', hb', -⟩ := hfrozen
  rw [hid] at hb'
  rw [hb'] at hb ⊢
  rw [List.mem_singleton.mp hb]

/-- Snapshots have one dependency a series. -/
theorem Store.find_frozenDependencies {s : Store} (h : s.SeriesOk) {b : Uuid}
    {f : FrozenUpstreamDatasetVersion} (hf : f ∈ s.frozenDependencies b) :
    (s.frozenDependencies b).find? (·.identity = f.identity) = some f := by
  cases hfind : (s.frozenDependencies b).find? (·.identity = f.identity) with
  | none =>
      have := List.find?_eq_none.mp hfind f hf
      simp at this
  | some f' =>
      have hident : f'.identity = f.identity := by simpa using List.find?_some hfind
      obtain ⟨d, hd, hseries, hversion, ds, dv, hds, hds', hdv, hnumber⟩ :=
        Store.mem_frozenDependencies hf
      obtain ⟨d', hd', hseries', hversion', es, ev, hes, hes', hev, hnumber'⟩ :=
        Store.mem_frozenDependencies (List.mem_of_find?_eq_some hfind)
      -- The series is the same, hence the row, hence the version.
      have hsame : f'.datasetSeriesId = f.datasetSeriesId :=
        h.identity _ _ es ds hes hds (hes'.trans (hident.trans hds'.symm))
      obtain ⟨hrow, hown⟩ := Store.mem_dependenciesOf.mp hd
      obtain ⟨hrow', hown'⟩ := Store.mem_dependenciesOf.mp hd'
      rw [hown', hseries', hsame, ← hseries, ← hown] at hrow'
      obtain rfl := Option.some.inj (hrow.symm.trans hrow')
      have hupstream : f'.datasetVersionId = f.datasetVersionId := hversion'.symm.trans hversion
      rw [hupstream] at hev
      obtain rfl := Option.some.inj (hdv.symm.trans hev)
      obtain ⟨identity, seriesId, versionId, version⟩ := f
      obtain ⟨identity', seriesId', versionId', version'⟩ := f'
      simp only at hident hsame hupstream hnumber hnumber'
      rw [hident, hsame, hupstream, ← hnumber, hnumber']

/-! ### The property -/

/-- **Inputs never go back**: a version is frozen with no older upstream versions than any
version before it in its series, and so are the commands that are sent for it. -/
theorem inputs_never_go_back (h : Reachable honours st) {id id' : Uuid}
    (hp : st.shared.db.Precedes id id') :
    (∀ b ∈ st.shared.db.snapshotsOf id, ∀ b' ∈ st.shared.db.snapshotsOf id',
      NoNewer (st.shared.db.frozenDependencies b.id) (st.shared.db.frozenDependencies b'.id))
    ∧ ∀ c ∈ st.shared.world.sent, ∀ c' ∈ st.shared.world.sent, c.datasetVersionId = id →
      c'.datasetVersionId = id' → NoNewer c.upstreamDatasetVersions c'.upstreamDatasetVersions := by
  have hfrozen : ∀ b ∈ st.shared.db.snapshotsOf id, ∀ b' ∈ st.shared.db.snapshotsOf id',
      NoNewer (st.shared.db.frozenDependencies b.id) (st.shared.db.frozenDependencies b'.id) := by
    intro b hb b' hb' f hf f' hf' hident
    obtain ⟨v, v', hv, hv', hseries, hle⟩ := hp
    obtain ⟨c, hreached, hshows⟩ := h.catalogue
    have hconsistent := h.consistent
    obtain ⟨r, hr, -⟩ := hconsistent.references.version _ v hv
    have hid : v.id = id := Table.get?_key hv
    have hid' : v'.id = id' := Table.get?_key hv'
    have hrid : r.id = v.datasetSeriesId := Table.get?_key hr
    have hinputs : ∀ {id : Uuid} {b : DatasetBuildSnapshot}, b ∈ st.shared.db.snapshotsOf id →
        st.shared.db.inputsOf id = some fun u =>
          ((st.shared.db.frozenDependencies b.id).find? (·.identity = u)).map (·.version) := by
      intro id b hb
      rw [Store.inputsOf, hconsistent.snapshotsOf_eq hb]
      rfl
    have hbuilt : (c r.identity).BuiltFrom v.version _ :=
      Store.builtFrom_of_inputsOf hconsistent hshows (hrid.symm ▸ hr)
        (Store.mem_versionsOf.mpr ⟨hid.symm ▸ hv, hrid.symm⟩) (hid.symm ▸ hinputs hb)
    have hbuilt' : (c r.identity).BuiltFrom v'.version _ :=
      Store.builtFrom_of_inputsOf hconsistent hshows (hrid.symm ▸ hr)
        (Store.mem_versionsOf.mpr ⟨hid'.symm ▸ hv', hseries.trans hrid.symm⟩)
        (hid'.symm ▸ hinputs hb')
    refine hreached.sound.ordered _ _ _ _ _ hle hbuilt hbuilt' f.identity _ _ ?_ ?_
    · rw [Store.find_frozenDependencies hconsistent.series hf]
      rfl
    · rw [← hident, Store.find_frozenDependencies hconsistent.series hf']
      rfl
  -- The upstream versions of a command are frozen dependencies of the snapshot it names.
  have hsent : ∀ c ∈ st.shared.world.sent, ∃ b ∈ st.shared.db.snapshotsOf c.datasetVersionId,
      ∀ f ∈ c.upstreamDatasetVersions, f ∈ st.shared.db.frozenDependencies b.id := by
    intro c hc
    have hdispatched := h.invariant.sent c hc
    obtain ⟨b, hb, hbid⟩ := hdispatched.snapshot
    refine ⟨b, by rw [hb]; exact List.mem_singleton_self b, fun f hf => ?_⟩
    have hcandidate := hdispatched.candidate hf
    rw [hbid]
    exact List.mem_of_mem_filter (hcandidate ▸ List.mem_singleton_self f)
  refine ⟨hfrozen, fun c hc c' hc' hid hid' f hf f' hf' => ?_⟩
  obtain ⟨b, hb, hall⟩ := hsent c hc
  obtain ⟨b', hb', hall'⟩ := hsent c' hc'
  exact hfrozen b (hid ▸ hb) b' (hid' ▸ hb') f (hall f hf) f' (hall' f' hf')

/-! ### A version that is built again -/

/-- The executor rejects the run of `margin`, its version is abandoned, `price` is published
once more, and `margin` is built anew. -/
def Script.rebuilt (honours : Prop) : Script honours :=
  chained honours ++ executes honours 1 .rejected ++ answers honours 6 (.rejected "") .notFound
    ++ steps honours 6 15 "e" ++ request honours (.abandonDatasetVersion "w1")
    ++ steps honours 7 20 "f" ++ request honours (.createDatasetVersion ⟨"price", "acme", 2024, .q1⟩)
    ++ steps honours 8 22 "x" ++ request honours (.runCalculationJob "x2")
    ++ steps honours 9 52 "g" ++ executes honours 2 .running
    ++ answers honours 9 .accepted .notFound ++ steps honours 9 19 "g"
    ++ executes honours 2 .succeeded ++ request honours (.reconcileCalculationJob "x2")
    ++ steps honours 10 2 "h" ++ answers honours 10 .accepted .succeeded
    ++ steps honours 10 19 "h" ++ request honours (.submitDatasetValidation "x1")
    ++ steps honours 11 16 "i" ++ request honours (.decideValidatedDataset "x1" .published)
    ++ steps honours 12 14 "j" ++ request honours (.createDatasetVersion ⟨"margin", "acme", 2024, .q1⟩)
    ++ steps honours 13 22 "y" ++ request honours (.runCalculationJob "y2")
    ++ steps honours 14 60 "k"

/-- The snapshots of a version, each with the versions it names. -/
def Store.frozenInputs (s : Store) (id : Uuid) : List (List (Uuid × Nat)) :=
  (s.snapshotsOf id).map fun b =>
    (s.frozenDependencies b.id).map fun f => (f.datasetVersionId, f.version)

theorem inputs_never_go_back_rebuilt : ∃ S, play (machine False) (Script.rebuilt False)
    SystemStage.chained = some S
      ∧ S.shared.db.frozenInputs "w1" = [[("v1", 1)]]
      ∧ S.shared.db.frozenInputs "y1" = [[("x1", 2)]]
      ∧ ∀ b ∈ S.shared.db.snapshotsOf "w1", ∀ b' ∈ S.shared.db.snapshotsOf "y1",
          NoNewer (S.shared.db.frozenDependencies b.id) (S.shared.db.frozenDependencies b'.id) := by
  obtain ⟨S, hS, hp⟩ := exists_of_play (p := fun S =>
      decide (S.shared.db.frozenInputs "w1" = [[("v1", 1)]]
        ∧ S.shared.db.frozenInputs "y1" = [[("x1", 2)]]
        ∧ (S.shared.db.datasetVersions.get? "w1").map (fun v => (v.datasetSeriesId, v.version))
          = some ("w0", 1)
        ∧ (S.shared.db.datasetVersions.get? "y1").map (fun v => (v.datasetSeriesId, v.version))
          = some ("w0", 2)))
    (show (play (machine False) (Script.rebuilt False) SystemStage.chained).any _ = true by
      decide +kernel)
  obtain ⟨hw, hy, hfirst, hsecond⟩ := of_decide_eq_true hp
  obtain ⟨v, hv, hv'⟩ := Option.map_eq_some_iff.mp hfirst
  obtain ⟨v', hrow, hrow'⟩ := Option.map_eq_some_iff.mp hsecond
  simp only [Prod.mk.injEq] at hv' hrow'
  refine ⟨S, hS, hw, hy,
    (inputs_never_go_back (.of_play SystemStage.chained_initial hS) ⟨v, v', hv, hrow, ?_, ?_⟩).1⟩
  · rw [hv'.1, hrow'.1]
  · rw [hv'.2, hrow'.2]
    decide

end CostEngine
