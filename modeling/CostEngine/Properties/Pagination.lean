import CostEngine.Demo.ReadListing
import CostEngine.Frontend.ApiClient

/-! # Cursor pagination loses and repeats nothing

A traversal reads the `n`-th page from the database as it is then; between two pages rows may
come and go. -/

namespace CostEngine

open Relational (KeysetPage KeysetWalk IsAfter)

section Traversal

variable (parse : List UInt8 → Option Json) (dbs : Nat → ReadDatabase)
variable (session : AuthenticatedDemoSession) (route : ReadRoute) (limit : Option Nat)

/-- The cursor of the `n`-th request: `nextCursor` of the answer before it. -/
def cursorAt : Nat → Option String
  | 0 => none
  | n + 1 =>
      match demoRead parse (dbs n) session (pageQuery limit (cursorAt n)) route with
      | .ok page => page.nextCursor
      | .error _ => none

def answerAt (n : Nat) : Except DemoReadError (PublicPage ReadItem) :=
  demoRead parse (dbs n) session (pageQuery limit (cursorAt parse dbs session route limit n)) route

/-- What the first `n` answers returned. -/
def itemsBefore : Nat → List ReadItem
  | 0 => []
  | n + 1 => itemsBefore n ++
      match answerAt parse dbs session route limit n with
      | .ok page => page.items
      | .error _ => []

/-! ### The traversal -/

/-- The traversal comes to the `n`-th request: every answer before it named a cursor. -/
def Follows (n : Nat) : Prop :=
  ∀ i < n, cursorAt parse dbs session route limit (i + 1) ≠ none

/-- The traversal ends with the answer to the `n`-th request. -/
def EndsAt (n : Nat) : Prop :=
  Follows parse dbs session route limit n ∧ cursorAt parse dbs session route limit (n + 1) = none

/-- The key in the `n`-th cursor. -/
def afterAt (n : Nat) : Option ReadKey :=
  (cursorAt parse dbs session route limit n).bind fun cursor =>
    readCursor parse route.kind (route.scope session) (.string cursor)

end Traversal

theorem Follows.succ {parse : List UInt8 → Option Json} {dbs : Nat → ReadDatabase}
    {session : AuthenticatedDemoSession} {route : ReadRoute} {limit : Option Nat} {n : Nat}
    (h : Follows parse dbs session route limit n) {cursor : String}
    (hc : cursorAt parse dbs session route limit (n + 1) = some cursor) :
    Follows parse dbs session route limit (n + 1) := by
  intro i hi
  rcases Nat.lt_succ_iff_lt_or_eq.mp hi with hlt | rfl
  · exact h i hlt
  · rw [hc]
    exact Option.some_ne_none cursor

section Pages

variable {parse : List UInt8 → Option Json} {dbs : Nat → ReadDatabase}
variable {session : AuthenticatedDemoSession} {route : ReadRoute} {limit : Option Nat}
variable (hparse : ReadsCursors parse) (hroute : route.Valid)
variable (hopen : ∀ n, (dbs n).Open session route) (hlimit : FitsLimit limit)
include hparse hroute hopen hlimit

/-- One answer, to a request with an emitted cursor or none. -/
theorem answerAt_step {n : Nat}
    (hstored : ∀ a ∈ afterAt parse dbs session route limit n, a.Stored route.kind)
    (hcursor : cursorAt parse dbs session route limit n
      = (afterAt parse dbs session route limit n).map
          (cursorText route.kind (route.scope session))) :
    ∃ answer, answerAt parse dbs session route limit n = .ok answer
      ∧ KeysetPage ((dbs n).keys session route) (afterAt parse dbs session route limit n)
          (answer.items.map ReadItem.key) (afterAt parse dbs session route limit (n + 1))
      ∧ answer.nextCursor = cursorAt parse dbs session route limit (n + 1)
      ∧ (∀ a ∈ afterAt parse dbs session route limit (n + 1), a.Stored route.kind)
      ∧ cursorAt parse dbs session route limit (n + 1)
        = (afterAt parse dbs session route limit (n + 1)).map
            (cursorText route.kind (route.scope session)) := by
  obtain ⟨answer, next, hanswer, hpage, hnext⟩ :=
    demoRead_page hparse (hopen n) hroute hlimit hstored
  rw [← hcursor] at hanswer
  have hcursorNext : cursorAt parse dbs session route limit (n + 1) = answer.nextCursor := by
    rw [cursorAt, hanswer]
  have hnextStored : ∀ m ∈ next, m.Stored route.kind := fun m hm =>
    ReadDatabase.keys_stored (hpage.sound m (hpage.last m hm).1).1
  have hafter : afterAt parse dbs session route limit (n + 1) = next := by
    unfold afterAt
    rw [hcursorNext, hnext]
    cases next with
    | none => rfl
    | some m =>
        obtain ⟨-, hplain, hlength⟩ := (hopen n).scope hroute
        rw [Option.map_some, Option.bind_some,
          readCursor_cursorText hparse hplain hlength (hnextStored m rfl).fits,
          if_pos ⟨rfl, rfl⟩]
  rw [hafter]
  exact ⟨answer, hanswer, hpage, hcursorNext.symm, hnextStored, hcursorNext.trans hnext⟩

/-! ### Emitted cursors -/

/-- Every cursor of the traversal is one that was emitted. -/
theorem cursorAt_eq (n : Nat) :
    (∀ a ∈ afterAt parse dbs session route limit n, a.Stored route.kind)
      ∧ cursorAt parse dbs session route limit n
        = (afterAt parse dbs session route limit n).map
            (cursorText route.kind (route.scope session)) := by
  induction n with
  | zero => exact ⟨nofun, rfl⟩
  | succ n ih =>
      obtain ⟨answer, -, -, -, hstored, hcursor⟩ :=
        answerAt_step hparse hroute hopen hlimit ih.1 ih.2
      exact ⟨hstored, hcursor⟩

theorem answerAt_page (n : Nat) :
    ∃ answer, answerAt parse dbs session route limit n = .ok answer
      ∧ KeysetPage ((dbs n).keys session route) (afterAt parse dbs session route limit n)
          (answer.items.map ReadItem.key) (afterAt parse dbs session route limit (n + 1))
      ∧ answer.nextCursor = cursorAt parse dbs session route limit (n + 1) := by
  obtain ⟨hstored, hcursor⟩ := cursorAt_eq hparse hroute hopen hlimit n
  obtain ⟨answer, hanswer, hpage, hnext, -⟩ :=
    answerAt_step hparse hroute hopen hlimit hstored hcursor
  exact ⟨answer, hanswer, hpage, hnext⟩

theorem cursorAt_eq_none {n : Nat} : cursorAt parse dbs session route limit n = none
    ↔ afterAt parse dbs session route limit n = none := by
  rw [(cursorAt_eq hparse hroute hopen hlimit n).2, Option.map_eq_none_iff]

/-! ### What is followed -/

/-- The pages that are followed walk over the keys. -/
theorem walk {n : Nat} (h : Follows parse dbs session route limit n) :
    KeysetWalk (fun n => (dbs n).keys session route) n (afterAt parse dbs session route limit n)
      ((itemsBefore parse dbs session route limit n).map ReadItem.key) := by
  induction n with
  | zero => exact .start
  | succ n ih =>
      obtain ⟨answer, hanswer, hpage, -⟩ := answerAt_page hparse hroute hopen hlimit n
      have hsome : afterAt parse dbs session route limit (n + 1) ≠ none := fun hnone =>
        h n (Nat.lt_succ_self n) ((cursorAt_eq_none hparse hroute hopen hlimit).mpr hnone)
      obtain ⟨m, hm⟩ := Option.ne_none_iff_exists'.mp hsome
      rw [itemsBefore, hanswer, List.map_append, hm]
      rw [hm] at hpage
      exact (ih fun i hi => h i (Nat.lt_succ_of_lt hi)).page hpage

/-- What the traversal has returned is sorted, and complete at its end. -/
theorem items_sorted {n : Nat} (h : Follows parse dbs session route limit n) :
    ((itemsBefore parse dbs session route limit (n + 1)).map ReadItem.key).Pairwise (· < ·) := by
  obtain ⟨answer, hanswer, hpage, -⟩ := answerAt_page hparse hroute hopen hlimit n
  have hwalk := walk hparse hroute hopen hlimit h
  rw [itemsBefore, hanswer, List.map_append]
  exact hwalk.sorted_append hwalk.sorted hpage

theorem items_complete {n : Nat} (h : EndsAt parse dbs session route limit n) {k : ReadKey}
    (hk : ∀ i ≤ n, k ∈ (dbs i).keys session route) :
    k ∈ (itemsBefore parse dbs session route limit (n + 1)).map ReadItem.key := by
  obtain ⟨answer, hanswer, hpage, -⟩ := answerAt_page hparse hroute hopen hlimit n
  have hwalk := walk hparse hroute hopen hlimit h.1
  rw [(cursorAt_eq_none hparse hroute hopen hlimit).mp h.2] at hpage
  rw [itemsBefore, hanswer, List.map_append]
  exact hwalk.complete_last hpage hk

/-! ### The traversal ends -/

omit hparse hroute hopen hlimit in
theorem ReadDatabase.keys_finite (db : ReadDatabase) (session : AuthenticatedDemoSession)
    (route : ReadRoute) : (db.keys session route).Finite := by
  cases hitems : db.listed session route with
  | none =>
      refine Set.finite_empty.subset fun k hk => ?_
      obtain ⟨items, hsome, -⟩ := hk
      rw [hitems] at hsome
      cases hsome
  | some items =>
      refine (List.finite_toSet (items.map ReadItem.key)).subset fun k hk => ?_
      obtain ⟨items', hsome, item, hitem, rfl⟩ := hk
      rw [hitems] at hsome
      cases hsome
      exact List.mem_map_of_mem hitem

/-- Once no rows are added, the traversal ends. -/
theorem exists_end {N : Nat}
    (hkeys : ∀ n ≥ N, (dbs (n + 1)).keys session route ⊆ (dbs n).keys session route) :
    ∃ n, EndsAt parse dbs session route limit n := by
  have hpages : ∀ n, ∃ keys, KeysetPage ((dbs n).keys session route)
      (afterAt parse dbs session route limit n) keys
      (afterAt parse dbs session route limit (n + 1)) := by
    intro n
    obtain ⟨answer, -, hpage, -⟩ := answerAt_page hparse hroute hopen hlimit n
    exact ⟨_, hpage⟩
  choose keys hpages using hpages
  have hends := Relational.exists_last_page (N := N) hpages
    (ReadDatabase.keys_finite (dbs N) session route) hkeys
  classical
  refine ⟨Nat.find hends, fun i hi => ?_, ?_⟩
  · exact mt (cursorAt_eq_none hparse hroute hopen hlimit).mp (Nat.find_min hends hi)
  · exact (cursorAt_eq_none hparse hroute hopen hlimit).mpr (Nat.find_spec hends)

/-! ### Cursors do not repeat -/

/-- The keys of the cursors increase. -/
theorem afterAt_lt {n i : Nat} (h : Follows parse dbs session route limit n) (hi : i < n)
    {a b : ReadKey} (ha : a ∈ afterAt parse dbs session route limit i)
    (hb : b ∈ afterAt parse dbs session route limit n) : a < b := by
  induction n generalizing b with
  | zero => exact absurd hi (Nat.not_lt_zero i)
  | succ n ih =>
      obtain ⟨answer, -, hpage, -⟩ := answerAt_page hparse hroute hopen hlimit n
      have hafter := (hpage.sound b (hpage.last b hb).1).2
      rcases Nat.lt_succ_iff_lt_or_eq.mp hi with hlt | rfl
      · have hprevious : afterAt parse dbs session route limit n ≠ none := by
          obtain ⟨n, rfl⟩ := Nat.exists_eq_succ_of_ne_zero (Nat.ne_zero_of_lt hlt)
          exact mt (cursorAt_eq_none hparse hroute hopen hlimit).mpr
            (h n (Nat.lt_succ_of_lt (Nat.lt_succ_self n)))
        obtain ⟨c, hc⟩ := Option.ne_none_iff_exists'.mp hprevious
        exact lt_trans (ih (fun j hj => h j (Nat.lt_succ_of_lt hj)) hlt hc) (hafter c hc)
      · exact hafter a ha

theorem cursorAt_ne {n i : Nat} (h : Follows parse dbs session route limit n) (hi : i < n)
    {cursor : String} (hc : cursorAt parse dbs session route limit n = some cursor) :
    cursorAt parse dbs session route limit i ≠ some cursor := by
  intro hcursor
  have hsome : afterAt parse dbs session route limit n ≠ none := by
    rw [Ne, ← cursorAt_eq_none hparse hroute hopen hlimit, hc]
    exact Option.some_ne_none cursor
  obtain ⟨b, hb⟩ := Option.ne_none_iff_exists'.mp hsome
  have hsame : afterAt parse dbs session route limit i
      = afterAt parse dbs session route limit n := by
    unfold afterAt
    rw [hcursor, hc]
  exact lt_irrefl b (afterAt_lt hparse hroute hopen hlimit h hi (hsame.trans hb) hb)

theorem cursorAt_ne_empty (n : Nat) : cursorAt parse dbs session route limit n ≠ some "" := by
  intro hempty
  obtain ⟨hstored, hcursor⟩ := cursorAt_eq hparse hroute hopen hlimit n
  rw [hempty] at hcursor
  obtain ⟨m, hm, htext⟩ := Option.map_eq_some_iff.mp hcursor.symm
  obtain ⟨-, hplain, hlength⟩ := (hopen n).scope hroute
  refine cursorText_checked hplain hlength (hstored m hm).fits (.inr (.inl ?_))
  rw [htext]
  rfl

end Pages

/-! ## The client -/

section Client

variable (parse : List UInt8 → Option Json) (dbs : Nat → ReadDatabase)
variable (session : AuthenticatedDemoSession) (route : ReadRoute)

/-- The server's answer to the `n`-th request of the client. -/
def served (n : Nat) (cursor : Option String) : Except ApiError (PublicPage ReadItem) :=
  (demoRead parse (dbs n) session (pageQuery (some demoReadMaxLimit) cursor) route).mapError
    fun e => ⟨e.statusCode, e.code⟩

variable {parse dbs session route}
variable (hparse : ReadsCursors parse) (hroute : route.Valid)
variable (hopen : ∀ n, (dbs n).Open session route)

/-! ### The loop of the client -/

theorem fitsLimit_max : FitsLimit (some demoReadMaxLimit) := by
  intro n hn
  cases hn
  decide

include hparse hroute hopen

/-- One round of the loop. -/
theorem pagesFrom_step {n : Nat} (h : Follows parse dbs session route (some demoReadMaxLimit) n)
    {seen : List String} (hseen : ∀ c ∈ seen, ∃ i ≤ n,
      cursorAt parse dbs session route (some demoReadMaxLimit) i = some c) (fuel : Nat) :
    ApiClient.pagesFrom (served parse dbs session route) (fuel + 1) n
        (cursorAt parse dbs session route (some demoReadMaxLimit) n)
        (itemsBefore parse dbs session route (some demoReadMaxLimit) n) seen
      = match cursorAt parse dbs session route (some demoReadMaxLimit) (n + 1) with
        | none => some (.ok (itemsBefore parse dbs session route (some demoReadMaxLimit) (n + 1)))
        | some c => ApiClient.pagesFrom (served parse dbs session route) fuel (n + 1) (some c)
            (itemsBefore parse dbs session route (some demoReadMaxLimit) (n + 1)) (c :: seen) := by
  obtain ⟨answer, hanswer, -, hnext⟩ := answerAt_page hparse hroute hopen fitsLimit_max n
  have hserved : served parse dbs session route n
      (cursorAt parse dbs session route (some demoReadMaxLimit) n) = .ok answer :=
    congrArg (Except.mapError _) hanswer
  have hitems : itemsBefore parse dbs session route (some demoReadMaxLimit) (n + 1)
      = itemsBefore parse dbs session route (some demoReadMaxLimit) n ++ answer.items := by
    rw [itemsBefore, hanswer]
  rw [ApiClient.pagesFrom, hserved, hitems]
  dsimp only
  rw [hnext]
  cases hc : cursorAt parse dbs session route (some demoReadMaxLimit) (n + 1) with
  | none => rfl
  | some c =>
      have hne : c ≠ "" := by
        rintro rfl
        exact cursorAt_ne_empty hparse hroute hopen fitsLimit_max (n + 1) hc
      have hfollows := h.succ hc
      have hnew : c ∉ seen := by
        intro hmem
        obtain ⟨i, hi, hcursor⟩ := hseen c hmem
        exact cursorAt_ne hparse hroute hopen fitsLimit_max hfollows (Nat.lt_succ_of_le hi) hc
          hcursor
      rw [Option.filter_some, if_pos (by simpa using hne)]
      exact if_neg hnew

/-- Whenever the loop ends, it returns what the traversal returned. -/
theorem pagesFrom_result {fuel n : Nat} {seen : List String} {r : Except ApiError (List ReadItem)}
    (h : Follows parse dbs session route (some demoReadMaxLimit) n)
    (hseen : ∀ c ∈ seen, ∃ i ≤ n,
      cursorAt parse dbs session route (some demoReadMaxLimit) i = some c)
    (hr : ApiClient.pagesFrom (served parse dbs session route) fuel n
      (cursorAt parse dbs session route (some demoReadMaxLimit) n)
      (itemsBefore parse dbs session route (some demoReadMaxLimit) n) seen = some r) :
    ∃ m, EndsAt parse dbs session route (some demoReadMaxLimit) m
      ∧ r = .ok (itemsBefore parse dbs session route (some demoReadMaxLimit) (m + 1)) := by
  induction fuel generalizing n seen with
  | zero => cases hr
  | succ fuel ih =>
      rw [pagesFrom_step hparse hroute hopen h hseen] at hr
      cases hc : cursorAt parse dbs session route (some demoReadMaxLimit) (n + 1) with
      | none =>
          rw [hc] at hr
          cases hr
          exact ⟨n, ⟨h, hc⟩, rfl⟩
      | some c =>
          rw [hc] at hr
          dsimp only at hr
          rw [← hc] at hr
          refine ih (h.succ hc) (fun c' hc' => ?_) hr
          rcases List.mem_cons.mp hc' with rfl | hc'
          · exact ⟨n + 1, Nat.le_refl _, hc⟩
          · obtain ⟨i, hi, hcursor⟩ := hseen c' hc'
            exact ⟨i, Nat.le_succ_of_le hi, hcursor⟩

/-- The loop ends with the traversal. -/
theorem pagesFrom_ends {m fuel n : Nat} {seen : List String}
    (hends : EndsAt parse dbs session route (some demoReadMaxLimit) m) (hn : n ≤ m)
    (hfuel : m - n < fuel)
    (hseen : ∀ c ∈ seen, ∃ i ≤ n,
      cursorAt parse dbs session route (some demoReadMaxLimit) i = some c) :
    ∃ r, ApiClient.pagesFrom (served parse dbs session route) fuel n
      (cursorAt parse dbs session route (some demoReadMaxLimit) n)
      (itemsBefore parse dbs session route (some demoReadMaxLimit) n) seen = some r := by
  induction fuel generalizing n seen with
  | zero => exact absurd hfuel (Nat.not_lt_zero _)
  | succ fuel ih =>
      have hfollows : Follows parse dbs session route (some demoReadMaxLimit) n :=
        fun i hi => hends.1 i (Nat.lt_of_lt_of_le hi hn)
      rw [pagesFrom_step hparse hroute hopen hfollows hseen]
      cases hc : cursorAt parse dbs session route (some demoReadMaxLimit) (n + 1) with
      | none => exact ⟨_, rfl⟩
      | some c =>
          have hlt : n < m := by
            refine Nat.lt_of_le_of_ne hn ?_
            rintro rfl
            rw [hends.2] at hc
            cases hc
          dsimp only
          rw [← hc]
          refine ih hlt (by omega) (fun c' hc' => ?_)
          rcases List.mem_cons.mp hc' with rfl | hc'
          · exact ⟨n + 1, Nat.le_refl _, hc⟩
          · obtain ⟨i, hi, hcursor⟩ := hseen c' hc'
            exact ⟨i, Nat.le_succ_of_le hi, hcursor⟩

end Client

/-! ## The property -/

/-- A cursor is read only for the list that it was made for. -/
theorem readPage_cursor {parse : List UInt8 → Option Json} (hparse : ReadsCursors parse)
    {kind kind' : ReadKind} {scope scope' : String} {after : ReadKey}
    (hplain : ∀ c ∈ scope.toList, Json.isPlain c = true) (hlength : scope.toList.length ≤ 100)
    (hafter : after.Fits kind) {values : List (String × Json)}
    (hvalues : values.lookup "cursor" = some (.string (cursorText kind scope after)))
    {page : ReadPage} (h : readPage parse (.object values) kind' scope' = .ok page) :
    kind' = kind ∧ scope' = scope ∧ page.after = some after := by
  have hread : readCursor parse kind' scope' (.string (cursorText kind scope after)) = _ :=
    readCursor_cursorText hparse hplain hlength hafter
  unfold readPage at h
  dsimp only at h
  rw [hvalues] at h
  dsimp only at h
  rw [hread] at h
  by_cases hsame : kind' = kind ∧ scope' = scope
  · rw [if_pos hsame] at h
    split at h
    · cases h
    · split at h
      · cases h
      · cases h
        exact ⟨hsame.1, hsame.2, rfl⟩
  · rw [if_neg hsame] at h
    split at h
    · cases h
    · split at h <;> cases h

/-- **Cursor pagination loses and repeats nothing**: for every list, limit and history of its
rows; cursors are read back, only for their own list; and the client is never given one twice. -/
theorem pagination_exact {parse : List UInt8 → Option Json} (hparse : ReadsCursors parse) :
    (∀ dbs session route limit, ReadRoute.Valid route →
      (∀ n, (dbs n).Open session route) → FitsLimit limit →
      (∀ n, ∃ answer, answerAt parse dbs session route limit n = .ok answer)
      ∧ (∀ n, Follows parse dbs session route limit n →
          ((itemsBefore parse dbs session route limit (n + 1)).map ReadItem.key).Pairwise (· < ·))
      ∧ (∀ n, EndsAt parse dbs session route limit n → ∀ k,
          (∀ i ≤ n, k ∈ (dbs i).keys session route) →
          k ∈ (itemsBefore parse dbs session route limit (n + 1)).map ReadItem.key)
      ∧ ((∃ N, ∀ n ≥ N, (dbs (n + 1)).keys session route ⊆ (dbs n).keys session route) →
          ∃ n, EndsAt parse dbs session route limit n))
    ∧ (∀ (T : Type) (rows : List T) (page : ReadPage) (kind : ReadKind)
        (session : AuthenticatedDemoSession) (id : String) (key : T → ReadKey) (cursor : String),
        IsUuid session.sessionId → id = "" ∨ validResourceId id = true →
        (∀ row ∈ rows, (key row).Fits kind) →
        (publicPage rows page kind (readScope session id) key).nextCursor = some cursor →
        ∃ last, (publicPage rows page kind (readScope session id) key).items.getLast? = some last
          ∧ (∀ limit, FitsLimit limit →
              readPage parse (pageQuery limit (some cursor)) kind (readScope session id)
                = .ok ⟨limit.getD 20, some (key last)⟩)
          ∧ ∀ values kind' session' id' page', List.lookup "cursor" values = some (.string cursor) →
              IsUuid session'.sessionId →
              readPage parse (.object values) kind' (readScope session' id') = .ok page' →
              kind' = kind ∧ session'.sessionId = session.sessionId
                ∧ lowerCase id' = lowerCase id ∧ page'.after = some (key last))
    ∧ ∀ dbs session route, ReadRoute.Valid route → (∀ n, (dbs n).Open session route) →
      (∀ fuel r, ApiClient.pages (served parse dbs session route) fuel = some r →
        ∃ n, EndsAt parse dbs session route (some demoReadMaxLimit) n
          ∧ r = .ok (itemsBefore parse dbs session route (some demoReadMaxLimit) (n + 1)))
      ∧ ((∃ N, ∀ n ≥ N, (dbs (n + 1)).keys session route ⊆ (dbs n).keys session route) →
          ∃ fuel r, ApiClient.pages (served parse dbs session route) fuel = some r) := by
  refine ⟨fun dbs session route limit hroute hopen hlimit => ⟨fun n => ?_, fun n h => ?_,
    fun n h k hk => ?_, ?_⟩, fun T rows page kind session id key cursor hsession hid hkeys hc => ?_,
    fun dbs session route hroute hopen => ⟨fun fuel r hr => ?_, ?_⟩⟩
  · obtain ⟨answer, hanswer, -⟩ := answerAt_page hparse hroute hopen hlimit n
    exact ⟨answer, hanswer⟩
  · exact items_sorted hparse hroute hopen hlimit h
  · exact items_complete hparse hroute hopen hlimit h hk
  · rintro ⟨N, hN⟩
    exact exists_end hparse hroute hopen hlimit hN
  · obtain ⟨last, hlast, rfl⟩ := publicPage_nextCursor hc
    obtain ⟨hplain, hlength⟩ := readScope_plain hsession hid
    have hfits : (key last).Fits kind :=
      hkeys last (List.mem_of_mem_take (List.mem_of_getLast? hlast))
    refine ⟨last, hlast, fun limit hlimit => ?_, fun values kind' session' id' page' hvalues
      hsession' hpage => ?_⟩
    · rw [readPage_pageQuery hlimit]
      dsimp only
      rw [readCursor_cursorText hparse hplain hlength hfits, if_pos ⟨rfl, rfl⟩]
    · obtain ⟨hkind, hscope, hafter⟩ := readPage_cursor hparse hplain hlength hfits hvalues hpage
      obtain ⟨hid', hlower⟩ := readScope_inj hsession' hsession hscope
      exact ⟨hkind, hid', hlower, hafter⟩
  · exact pagesFrom_result hparse hroute hopen (fun i hi => absurd hi (Nat.not_lt_zero i))
      (fun c hc => by cases hc) hr
  · rintro ⟨N, hN⟩
    obtain ⟨m, hends⟩ := exists_end hparse hroute hopen fitsLimit_max hN
    exact ⟨m + 1, pagesFrom_ends hparse hroute hopen hends (Nat.zero_le m) (Nat.lt_succ_self m)
      (fun c hc => by cases hc)⟩

/-! ## A traversal -/

/-! ### A reader of cursors -/

/-- A reader for the texts of cursors. -/
def cursorReader (bytes : List UInt8) : Option Json :=
  let isInside : Char → Bool := (· ≠ '\x22')
  let text := (bytes.map fun b => Char.ofNat b.toNat).drop
    "\x7b\x22v\x22:1,\x22kind\x22:\x22".toList.length
  let kind := text.takeWhile isInside
  let text := (text.drop kind.length).drop "\x22,\x22scope\x22:\x22".toList.length
  let scope := text.takeWhile isInside
  let text := (text.drop scope.length).drop "\x22,\x22after\x22:".toList.length
  some (.object [("v", .number 1), ("kind", .string (String.ofList kind)),
    ("scope", .string (String.ofList scope)),
    ("after",
      if text.head? = some '\x22' then .string (String.ofList (text.tail.takeWhile isInside))
      else .number (Nat.ofDigitChars 10 (text.takeWhile Char.isDigit) 0))])

/-- The text before a quotation mark. -/
theorem takeWhile_inside {text rest : List Char} (h : ∀ c ∈ text, Json.isPlain c = true) :
    (text ++ '\x22' :: rest).takeWhile (· ≠ '\x22') = text := by
  rw [List.takeWhile_append_of_pos]
  · simp
  · intro c hc
    rw [decide_eq_true_eq]
    rintro rfl
    cases h _ hc

theorem readsCursors_cursorReader : ReadsCursors cursorReader := by
  intro kind scope after hscope hafter
  have hstart : ∀ rest : List Char, ("\x22,\x22scope\x22:\x22".toList ++ rest)
      = '\x22' :: (",\x22scope\x22:\x22".toList ++ rest) := fun _ => rfl
  have hmiddle : ∀ rest : List Char, ("\x22,\x22after\x22:".toList ++ rest)
      = '\x22' :: (",\x22after\x22:".toList ++ rest) := fun _ => rfl
  have htext : cursorJson kind scope after = _ := cursorJson_eq hscope
  simp only [List.append_assoc] at htext
  unfold cursorReader
  dsimp only
  rw [map_utf8 (cursorJson_ascii hscope hafter), htext, List.drop_left, hstart,
    takeWhile_inside (kind_plain kind), ← hstart, List.drop_left, List.drop_left, hmiddle,
    takeWhile_inside hscope, ← hmiddle, List.drop_left, List.drop_left, String.ofList_toList,
    String.ofList_toList]
  unfold cursorFields
  congr 5
  cases after with
  | id text =>
      have hid := validResourceId_plain hafter.2
      rw [written_id hafter.2]
      simp only [List.cons_append, List.append_assoc, List.head?_cons, if_true, List.tail_cons]
      rw [takeWhile_inside hid.2, String.ofList_toList]
  | number n =>
      have hdigits : ∀ c ∈ Nat.toDigits 10 n, c.isDigit = true := fun c hc =>
        Nat.isDigit_of_mem_toDigits (by decide) (by decide) hc
      have hhead : ((ReadKey.number n).written ++ ['\x7d']).head? ≠ some '\x22' := by
        intro hquote
        rcases List.mem_append.mp (List.mem_of_mem_head? hquote) with hc | hc
        · cases hdigits _ hc
        · cases List.mem_singleton.mp hc
      have hwhile : ((ReadKey.number n).written ++ ['\x7d']).takeWhile Char.isDigit
          = Nat.toDigits 10 n := by
        show (Nat.toDigits 10 n ++ ['\x7d']).takeWhile Char.isDigit = _
        rw [List.takeWhile_append_of_pos hdigits]
        simp
      rw [if_neg hhead, hwhile, Nat.ofDigitChars_ten_toDigits]

/-! ### A list of two -/

/-- A session with two versions of one series. -/
def listedDatabase : ReadDatabase where
  store :=
    { Store.empty .empty .empty .empty with
      datasetSeries := ⟨[⟨"series", ⟨"SALES", "DEMO_1", 2026, .q1⟩, 2⟩], by decide⟩
      datasetVersions := ⟨[⟨"0b000000-0000-4000-8000-000000000002", "series", 2, .draft, 0, none,
          none, none, none, none⟩,
        ⟨"0a000000-0000-4000-8000-000000000001", "series", 1, .published, 0, none, none, none, none,
          none⟩], by decide⟩ }
  demoSessions := ⟨[⟨"5e000000-0000-4000-8000-00000000000e", "DEMO_1", false⟩], by decide⟩
  sessionIds := by decide +kernel
  versionIds := by decide +kernel
  jobIds := by decide
  attemptNumbers := by decide
  uniqueAttempts _ := List.nodup_nil

def listingSession : AuthenticatedDemoSession :=
  ⟨"5e000000-0000-4000-8000-00000000000e", "DEMO_1"⟩

/-- With a limit of one, the two versions are returned in the order of their ids. -/
theorem pagination_exact_two :
    ∃ n, EndsAt cursorReader (fun _ => listedDatabase) listingSession .datasets (some 1) n
      ∧ ReadKey.id "0b000000-0000-4000-8000-000000000002"
        ∈ (itemsBefore cursorReader (fun _ => listedDatabase) listingSession .datasets (some 1)
          (n + 1)).map ReadItem.key := by
  have hopen : listedDatabase.Open listingSession .datasets := ⟨⟨_, rfl⟩, _, rfl⟩
  have hlimit : FitsLimit (some 1) := by
    intro n hn
    cases hn
    decide
  obtain ⟨-, -, hcomplete, hends⟩ := (pagination_exact readsCursors_cursorReader).1
    (fun _ => listedDatabase) listingSession .datasets (some 1) trivial (fun _ => hopen) hlimit
  obtain ⟨n, hn⟩ := hends ⟨0, fun _ _ => subset_rfl⟩
  refine ⟨n, hn, hcomplete n hn _ fun _ _ => ⟨_, rfl, ?_⟩⟩
  exact ⟨_, List.mem_map_of_mem (List.mem_filterMap.mpr ⟨_, List.mem_cons_self, rfl⟩), rfl⟩

end CostEngine
