import CostEngine.Demo.ReadRepository
import Mathlib.Data.Sum.Order

/-! # What one read answers

The three lists differ in their rows and their keys; of each, one answer is a keyset page. -/

namespace CostEngine

open Relational (Table KeysetPage IsAfter orderByKey mem_orderByKey)

/-! ## Keys in order -/

namespace ReadKey

def toSum : ReadKey → String ⊕ₗ Nat
  | .id text => Sum.inlₗ text
  | .number n => Sum.inrₗ n

theorem toSum_injective : Function.Injective toSum := by
  intro k k' h
  cases k <;> cases k' <;> simp_all [toSum]

/-- Ids are in the order of the uuids, and numbers in theirs. -/
instance : LinearOrder ReadKey := LinearOrder.lift' toSum toSum_injective

theorem strictMono_id : StrictMono ReadKey.id := fun _ _ h => Sum.Lex.inl_lt_inl_iff.mpr h

theorem strictMono_number : StrictMono ReadKey.number := fun _ _ h => Sum.Lex.inr_lt_inr_iff.mpr h

/-- A key that a row of the list can have. -/
def Stored (kind : ReadKind) : ReadKey → Prop
  | .id text => kind ≠ .attempts ∧ IsUuid text
  | .number n => kind = .attempts ∧ 1 ≤ n ∧ n ≤ 2147483647

theorem Stored.fits {kind : ReadKind} {k : ReadKey} (h : k.Stored kind) : k.Fits kind := by
  cases k with
  | id text => exact ⟨h.1, h.2.1⟩
  | number n => exact h

end ReadKey

def ReadItem.key : ReadItem → ReadKey
  | .dataset item => .id item.datasetVersionId
  | .job item => .id item.jobId
  | .attempt item => .number item.attemptNumber

/-! ## One page -/

section Page

variable {T κ : Type} [LinearOrder κ] {key : T → κ} {f : κ → ReadKey} {rows : List T}

theorem publicPage_nextRows (hf : StrictMono f) (hnodup : (rows.map key).Nodup) {page : ReadPage}
    {after : Option κ} (hafter : page.after = after.map f) (hlimit : 0 < page.limit)
    (kind : ReadKind) (scope : String) :
    ∃ next, KeysetPage {k | ∃ row ∈ rows, f (key row) = k} page.after
        ((publicPage (nextRows key after page.limit rows) page kind scope
          fun row => f (key row)).items.map fun row => f (key row)) next
      ∧ (publicPage (nextRows key after page.limit rows) page kind scope
          fun row => f (key row)).nextCursor = next.map (cursorText kind scope) := by
  let found := orderByKey key (rows.filter fun row => after.all fun a => a < key row)
  have hsorted : found.Pairwise (key · < key ·) :=
    Relational.orderByKey_sorted (hnodup.sublist (List.filter_sublist.map key))
  have hK : ∀ k, (k ∈ {k | ∃ row ∈ rows, key row = k} ∧ IsAfter after k)
      ↔ ∃ row ∈ found, key row = k := by
    intro k
    have hfound : ∀ row, row ∈ found ↔ row ∈ rows ∧ IsAfter after (key row) := by
      intro row
      rw [mem_orderByKey, List.mem_filter]
      cases after <;> simp [IsAfter]
    constructor
    · rintro ⟨⟨row, hrow, rfl⟩, hk⟩
      exact ⟨row, (hfound row).mpr ⟨hrow, hk⟩, rfl⟩
    · rintro ⟨row, hrow, rfl⟩
      obtain ⟨hrow, hk⟩ := (hfound row).mp hrow
      exact ⟨⟨row, hrow, rfl⟩, hk⟩
  have hpage := (KeysetPage.of_sorted hsorted hK hlimit).map hf
  have htake : (found.take (page.limit + 1)).take page.limit = found.take page.limit := by
    rw [List.take_take, Nat.min_eq_left (Nat.le_succ _)]
  have hmore : (found.take (page.limit + 1)).length > page.limit ↔ page.limit < found.length := by
    rw [List.length_take]
    omega
  have himage : Set.image f {k | ∃ row ∈ rows, key row = k} = {k | ∃ row ∈ rows, f (key row) = k} := by
    ext k
    constructor
    · rintro ⟨_, ⟨row, hrow, rfl⟩, rfl⟩
      exact ⟨row, hrow, rfl⟩
    · rintro ⟨row, hrow, rfl⟩
      exact ⟨key row, ⟨row, hrow, rfl⟩, rfl⟩
  rw [himage, List.map_map, ← hafter] at hpage
  refine ⟨Option.map f (if page.limit < found.length then
    (found.take page.limit).getLast?.map key else none), ?_, ?_⟩
  · have hitems : (publicPage (nextRows key after page.limit rows) page kind scope
        fun row => f (key row)).items = found.take page.limit := htake
    rw [hitems]
    exact hpage
  · show (if (found.take (page.limit + 1)).length > page.limit then
      ((found.take (page.limit + 1)).take page.limit).getLast?.map _ else none)
        = Option.map _ (Option.map f
          (if page.limit < found.length then (found.take page.limit).getLast?.map key else none))
    rw [htake]
    by_cases hm : page.limit < found.length
    · rw [if_pos (hmore.mpr hm), if_pos hm, Option.map_map, Option.map_map]
      rfl
    · rw [if_neg (mt hmore.mp hm), if_neg hm]
      rfl

end Page

/-- What a cursor of a page is made of. -/
theorem publicPage_nextCursor {T : Type} {rows : List T} {page : ReadPage} {kind : ReadKind}
    {scope cursor : String} {key : T → ReadKey}
    (h : (publicPage rows page kind scope key).nextCursor = some cursor) :
    ∃ last, (publicPage rows page kind scope key).items.getLast? = some last
      ∧ cursor = cursorText kind scope (key last) := by
  unfold publicPage at h ⊢
  dsimp only at h ⊢
  split at h
  · obtain ⟨last, hlast, rfl⟩ := Option.map_eq_some_iff.mp h
    exact ⟨last, hlast, rfl⟩
  · cases h

/-! ## The three lists -/

namespace ReadRoute

def kind : ReadRoute → ReadKind
  | .datasets => .datasets
  | .jobs _ => .jobs
  | .attempts _ => .attempts

/-- The id of the parent row, in the path. -/
def parent : ReadRoute → String
  | .datasets => ""
  | .jobs id => id
  | .attempts id => id

/-- A path that is not refused. -/
def Valid : ReadRoute → Prop
  | .datasets => True
  | .jobs id => validResourceId id = true
  | .attempts id => validResourceId id = true

end ReadRoute

namespace ReadDatabase

variable {db : ReadDatabase} {session : AuthenticatedDemoSession}

/-! ### Rows of a list -/

/-- The rows of a list, if its parent row is there and belongs to the session. -/
def listed (db : ReadDatabase) (session : AuthenticatedDemoSession) :
    ReadRoute → Option (List ReadItem)
  | .datasets => some ((db.datasetRows session).map .dataset)
  | .jobs id => (db.jobRows session id).map (·.map .job)
  | .attempts id => (db.attemptRows session id).map (·.map .attempt)

/-- The keys of the rows of a list. -/
def keys (db : ReadDatabase) (session : AuthenticatedDemoSession) (route : ReadRoute) :
    Set ReadKey :=
  {k | ∃ items, db.listed session route = some items ∧ ∃ item ∈ items, item.key = k}

/-- The session and the parent row of the path exist. -/
def Open (db : ReadDatabase) (session : AuthenticatedDemoSession) (route : ReadRoute) : Prop :=
  (∃ row, db.demoSessions.get? session.sessionId = some row)
    ∧ ∃ items, db.listed session route = some items

/-- Items that keep the keys of their rows. -/
theorem map_filterMap_sublist {T U κ : Type} {g : T → Option U} {key : T → κ} {key' : U → κ}
    (h : ∀ x y, g x = some y → key' y = key x) (rows : List T) :
    ((rows.filterMap g).map key').Sublist (rows.map key) := by
  induction rows with
  | nil => exact .slnil
  | cons row rows ih =>
      rw [List.filterMap_cons]
      cases hg : g row with
      | none => exact ih.cons _
      | some item =>
          rw [List.map_cons, List.map_cons, h row item hg]
          exact ih.cons_cons _

/-! ### Keys -/

theorem nodup_datasetRows : ((db.datasetRows session).map (·.datasetVersionId)).Nodup := by
  refine db.store.datasetVersions.nodup.sublist (map_filterMap_sublist (fun v item hitem => ?_) _)
  obtain ⟨ds, -, rfl⟩ := Option.map_eq_some_iff.mp hitem
  rfl

theorem jobId_of_jobItem {j : CalculationJob} {item : DemoJobDto} (h : db.jobItem j = some item) :
    item.jobId = j.id := by
  obtain ⟨ct, -, rfl⟩ := Option.map_eq_some_iff.mp h
  rfl

theorem mem_datasetRows {item : DemoDatasetDto} (h : item ∈ db.datasetRows session) :
    ∃ v ∈ db.store.datasetVersions.rows, v.id = item.datasetVersionId := by
  obtain ⟨v, hv, hitem⟩ := List.mem_filterMap.mp h
  obtain ⟨ds, -, rfl⟩ := Option.map_eq_some_iff.mp hitem
  exact ⟨v, hv, rfl⟩

theorem jobRows_eq {id : String} {rows : List DemoJobDto} (h : db.jobRows session id = some rows) :
    ∃ v, rows = (db.store.jobsOf v).filterMap db.jobItem := by
  obtain ⟨v, -, rfl⟩ := Option.map_eq_some_iff.mp h
  exact ⟨v.id, rfl⟩

theorem attemptRows_eq {id : String} {rows : List DemoAttemptDto}
    (h : db.attemptRows session id = some rows) :
    ∃ j, rows = (db.store.attemptsOf j).map attemptItem := by
  obtain ⟨j, -, rfl⟩ := Option.map_eq_some_iff.mp h
  exact ⟨j.id, rfl⟩

theorem nodup_jobRows {id : String} {rows : List DemoJobDto}
    (h : db.jobRows session id = some rows) : (rows.map (·.jobId)).Nodup := by
  obtain ⟨v, rfl⟩ := jobRows_eq h
  have hnodup : ((db.store.jobsOf v).map (·.id)).Nodup := db.store.calculationJobs.nodup_filter _
  exact hnodup.sublist (map_filterMap_sublist (fun j item => jobId_of_jobItem) _)

theorem nodup_attemptRows {id : String} {rows : List DemoAttemptDto}
    (h : db.attemptRows session id = some rows) : (rows.map (·.attemptNumber)).Nodup := by
  obtain ⟨j, rfl⟩ := attemptRows_eq h
  rw [List.map_map]
  exact db.uniqueAttempts j

theorem keys_stored {route : ReadRoute} {k : ReadKey} (h : k ∈ db.keys session route) :
    k.Stored route.kind := by
  obtain ⟨items, hitems, item, hitem, rfl⟩ := h
  cases route with
  | datasets =>
      cases hitems
      obtain ⟨row, hrow, rfl⟩ := List.mem_map.mp hitem
      obtain ⟨v, hv, hid⟩ := mem_datasetRows hrow
      exact ⟨by decide, hid ▸ db.versionIds v hv⟩
  | jobs id =>
      obtain ⟨rows, hrows, rfl⟩ := Option.map_eq_some_iff.mp hitems
      obtain ⟨row, hrow, rfl⟩ := List.mem_map.mp hitem
      obtain ⟨v, rfl⟩ := jobRows_eq hrows
      obtain ⟨j, hj, hjob⟩ := List.mem_filterMap.mp hrow
      show _ ∧ IsUuid row.jobId
      rw [jobId_of_jobItem hjob]
      exact ⟨nofun, db.jobIds j (List.mem_of_mem_filter hj)⟩
  | attempts id =>
      obtain ⟨rows, hrows, rfl⟩ := Option.map_eq_some_iff.mp hitems
      obtain ⟨row, hrow, rfl⟩ := List.mem_map.mp hitem
      obtain ⟨j, rfl⟩ := attemptRows_eq hrows
      obtain ⟨a, ha, rfl⟩ := List.mem_map.mp hrow
      exact ⟨rfl, db.attemptNumbers a (List.mem_of_mem_filter ha)⟩

end ReadDatabase

/-! ## Scopes -/

theorem toLower_plain {c : Char} (h : Json.isPlain c = true) : Json.isPlain c.toLower = true := by
  have hall : ∀ n : Fin 128, Json.isPlain (Char.ofNat n) = true →
      Json.isPlain (Char.ofNat n).toLower = true := by decide +kernel
  have hlt : c.toNat < 128 := by
    rw [Json.isPlain, decide_eq_true_eq] at h
    omega
  have hc := hall ⟨c.toNat, hlt⟩
  rw [Char.ofNat_toNat] at hc
  exact hc h

theorem length_lowerCase (id : String) : (lowerCase id).toList.length = id.toList.length := by
  rw [lowerCase, String.toList_ofList, List.length_map]

theorem readScope_plain {session : AuthenticatedDemoSession} {id : String}
    (hsession : IsUuid session.sessionId) (hid : id = "" ∨ validResourceId id = true) :
    (∀ c ∈ (readScope session id).toList, Json.isPlain c = true)
      ∧ (readScope session id).toList.length ≤ 100 := by
  obtain ⟨hlength, hplain⟩ := validResourceId_plain hsession.1
  have hidPlain : id.toList.length ≤ 36 ∧ ∀ c ∈ id.toList, Json.isPlain c = true := by
    rcases hid with rfl | hid
    · exact ⟨by decide, fun c hc => by cases hc⟩
    · exact ⟨Nat.le_of_eq (validResourceId_plain hid).1, (validResourceId_plain hid).2⟩
  unfold readScope
  rw [String.toList_append, String.toList_append]
  refine ⟨fun c hc => ?_, ?_⟩
  · simp only [List.mem_append] at hc
    rcases hc with (hc | hc) | hc
    · exact hplain c hc
    · rw [List.mem_singleton.mp hc]
      decide
    · rw [lowerCase, String.toList_ofList] at hc
      obtain ⟨d, hd, rfl⟩ := List.mem_map.mp hc
      exact toLower_plain (hidPlain.2 d hd)
  · have hcolon : ":".toList.length = 1 := rfl
    rw [List.length_append, List.length_append, hlength, hcolon, length_lowerCase]
    have := hidPlain.1
    omega

/-- A scope says whose list it is, up to the case of the id. -/
theorem readScope_inj {session session' : AuthenticatedDemoSession} {id id' : String}
    (hsession : IsUuid session.sessionId) (hsession' : IsUuid session'.sessionId)
    (h : readScope session id = readScope session' id') :
    session.sessionId = session'.sessionId ∧ lowerCase id = lowerCase id' := by
  have hl := congrArg String.toList h
  unfold readScope at hl
  simp only [String.toList_append] at hl
  have hlength := (validResourceId_plain hsession.1).1.trans
    (validResourceId_plain hsession'.1).1.symm
  obtain ⟨hfront, hback⟩ := List.append_inj hl (by
    rw [List.length_append, List.length_append, hlength])
  exact ⟨String.toList_inj.mp (List.append_inj hfront hlength).1, String.toList_inj.mp hback⟩

/-! ## The answer of a route -/

def ReadRoute.scope (session : AuthenticatedDemoSession) (route : ReadRoute) : String :=
  readScope session route.parent

section Answer

variable {parse : List UInt8 → Option Json} {db : ReadDatabase}
variable {session : AuthenticatedDemoSession} {route : ReadRoute} {limit : Option Nat}

theorem ReadDatabase.Open.scope (h : db.Open session route) (hroute : route.Valid) :
    IsUuid session.sessionId ∧ (∀ c ∈ (route.scope session).toList, Json.isPlain c = true)
      ∧ (route.scope session).toList.length ≤ 100 := by
  obtain ⟨⟨row, hrow⟩, -⟩ := h
  have hid : IsUuid session.sessionId :=
    Table.get?_key hrow ▸ db.sessionIds row (Table.get?_mem hrow)
  refine ⟨hid, readScope_plain hid ?_⟩
  cases route with
  | datasets => exact .inl rfl
  | jobs id => exact .inr hroute
  | attempts id => exact .inr hroute

/-- A page that is asked for is read back as it was meant. -/
theorem readPage_after (hparse : ReadsCursors parse) (hopen : db.Open session route)
    (hroute : route.Valid) (hlimit : FitsLimit limit) {after : Option ReadKey}
    (hafter : ∀ a ∈ after, a.Fits route.kind) :
    readPage parse (pageQuery limit (after.map (cursorText route.kind (route.scope session))))
      route.kind (route.scope session) = .ok ⟨limit.getD 20, after⟩ := by
  obtain ⟨-, hplain, hlength⟩ := hopen.scope hroute
  rw [readPage_pageQuery hlimit]
  cases after with
  | none => rfl
  | some a =>
      dsimp only [Option.map_some]
      rw [readCursor_cursorText hparse hplain hlength (hafter a rfl), if_pos ⟨rfl, rfl⟩]

theorem afterId_eq {kind : ReadKind} (hkind : kind ≠ .attempts) {after : Option ReadKey}
    (h : ∀ a ∈ after, a.Stored kind) (n : Nat) :
    after = (ReadPage.afterId ⟨n, after⟩).map .id := by
  match after, h with
  | none, _ => rfl
  | some (.id text), h => exact congrArg (some ∘ ReadKey.id) (h _ rfl).2.2.symm
  | some (.number _), h => exact absurd (h _ rfl).1 hkind

theorem afterNumber_eq {after : Option ReadKey} (h : ∀ a ∈ after, a.Stored .attempts) (n : Nat) :
    after = (ReadPage.afterNumber ⟨n, after⟩).map .number := by
  match after, h with
  | none, _ => rfl
  | some (.id _), h => exact absurd rfl (h _ rfl).1
  | some (.number _), _ => rfl

theorem ReadDatabase.keys_eq {T : Type} {rows : List T} {mk : T → ReadItem}
    (h : db.listed session route = some (rows.map mk)) :
    db.keys session route = {k | ∃ row ∈ rows, (mk row).key = k} := by
  ext k
  constructor
  · rintro ⟨items, hitems, item, hitem, rfl⟩
    rw [h] at hitems
    cases hitems
    obtain ⟨row, hrow, rfl⟩ := List.mem_map.mp hitem
    exact ⟨row, hrow, rfl⟩
  · rintro ⟨row, hrow, rfl⟩
    exact ⟨_, h, mk row, List.mem_map_of_mem hrow, rfl⟩

/-! ### The page of a list -/

/-- The page of a list, for rows with the keys `key`. -/
theorem page_of_listed {T κ : Type} [LinearOrder κ] (route : ReadRoute) (page : ReadPage)
    {rows : List T} {mk : T → ReadItem} {key : T → κ} {f : κ → ReadKey} (hf : StrictMono f) (hkey : ∀ row, (mk row).key = f (key row))
    (hlisted : db.listed session route = some (rows.map mk)) (hnodup : (rows.map key).Nodup)
    {after : Option κ} (hafter : page.after = after.map f) (hpos : 0 < page.limit) :
    ∃ next,
      KeysetPage (db.keys session route) page.after
        (((publicPage (nextRows key after page.limit rows) page route.kind (route.scope session)
          fun row => f (key row)).map mk).items.map ReadItem.key) next
      ∧ ((publicPage (nextRows key after page.limit rows) page route.kind (route.scope session)
          fun row => f (key row)).map mk).nextCursor
        = next.map (cursorText route.kind (route.scope session)) := by
  obtain ⟨next, hpage, hnext⟩ := publicPage_nextRows hf hnodup hafter hpos route.kind
    (route.scope session)
  refine ⟨next, ?_, hnext⟩
  have hitems : ∀ answer : PublicPage T, (answer.map mk).items.map ReadItem.key
      = answer.items.map fun row => f (key row) := by
    intro answer
    unfold PublicPage.map
    rw [List.map_map]
    exact List.map_congr_left fun row _ => hkey row
  rw [hitems, ReadDatabase.keys_eq hlisted]
  simp only [hkey]
  exact hpage

theorem demoRead_page (hparse : ReadsCursors parse) (hopen : db.Open session route)
    (hroute : route.Valid) (hlimit : FitsLimit limit) {after : Option ReadKey}
    (hafter : ∀ a ∈ after, a.Stored route.kind) :
    ∃ answer next,
      demoRead parse db session (pageQuery limit
        (after.map (cursorText route.kind (route.scope session)))) route = .ok answer
      ∧ KeysetPage (db.keys session route) after (answer.items.map ReadItem.key) next
      ∧ answer.nextCursor = next.map (cursorText route.kind (route.scope session)) := by
  have hpage := readPage_after hparse hopen hroute hlimit fun a ha => (hafter a ha).fits
  have hpos : 0 < limit.getD 20 := by
    cases limit with
    | none => decide
    | some n => exact (hlimit n rfl).1
  obtain ⟨-, items, hitems⟩ := hopen
  cases route with
  | datasets =>
      obtain ⟨next, hkeys, hnext⟩ := page_of_listed .datasets ⟨limit.getD 20, after⟩
        ReadKey.strictMono_id (fun _ => rfl) rfl
        ReadDatabase.nodup_datasetRows
        (afterId_eq (show ReadKind.datasets ≠ .attempts by decide) hafter (limit.getD 20)) hpos
      refine ⟨_, next, ?_, hkeys, hnext⟩
      exact congrArg (fun page => page >>= fun page =>
        pure ((db.datasets session page).map ReadItem.dataset)) hpage
  | jobs id =>
      obtain ⟨rows, hrows, rfl⟩ := Option.map_eq_some_iff.mp hitems
      obtain ⟨next, hkeys, hnext⟩ := page_of_listed (.jobs id) ⟨limit.getD 20, after⟩
        ReadKey.strictMono_id (fun _ => rfl) hitems
        (ReadDatabase.nodup_jobRows hrows)
        (afterId_eq (show ReadKind.jobs ≠ .attempts by decide) hafter (limit.getD 20)) hpos
      refine ⟨_, next, ?_, hkeys, hnext⟩
      refine (if_neg (fun hinvalid => ?_)).trans ?_
      · cases hinvalid.symm.trans hroute
      · refine (congrArg (· >>= _) hpage).trans ?_
        show db.jobs session id ⟨limit.getD 20, after⟩ >>= _ = _
        rw [ReadDatabase.jobs, hrows]
        rfl
  | attempts id =>
      obtain ⟨rows, hrows, rfl⟩ := Option.map_eq_some_iff.mp hitems
      obtain ⟨next, hkeys, hnext⟩ := page_of_listed (.attempts id) ⟨limit.getD 20, after⟩
        ReadKey.strictMono_number (fun _ => rfl) hitems
        (ReadDatabase.nodup_attemptRows hrows) (afterNumber_eq hafter (limit.getD 20)) hpos
      refine ⟨_, next, ?_, hkeys, hnext⟩
      refine (if_neg (fun hinvalid => ?_)).trans ?_
      · cases hinvalid.symm.trans hroute
      · refine (congrArg (· >>= _) hpage).trans ?_
        show db.attempts session id ⟨limit.getD 20, after⟩ >>= _ = _
        rw [ReadDatabase.attempts, hrows]
        rfl

end Answer

end CostEngine
