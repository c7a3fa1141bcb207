import CostEngine.Codec.Base64Url
import CostEngine.Codec.Json
import Mathlib.Data.List.Sort

/-! # `demo-read.pagination.ts`

`parse` stands for `JSON.parse(buffer.toString('utf8'))`: the value of the text that some
bytes are, or nothing if it throws. -/

namespace CostEngine

/-- The errors of the read routes. -/
inductive DemoReadError where
  | invalidRequest
  | resourceUnavailable
  deriving DecidableEq

namespace DemoReadError

def code : DemoReadError → String
  | .invalidRequest => "INVALID_REQUEST"
  | .resourceUnavailable => "DEMO_RESOURCE_UNAVAILABLE"

def statusCode : DemoReadError → Nat
  | .invalidRequest => 400
  | .resourceUnavailable => 404

def message : DemoReadError → String
  | .invalidRequest => "Invalid request"
  | .resourceUnavailable => "Demo resource unavailable"

end DemoReadError

def demoReadMaxLimit : Nat := 100

/-- `[0-9a-f]`, in either case. -/
def isHexDigit (c : Char) : Bool :=
  (48 ≤ c.toNat ∧ c.toNat ≤ 57) ∨ (97 ≤ c.toNat ∧ c.toNat ≤ 102)
    ∨ (65 ≤ c.toNat ∧ c.toNat ≤ 70)

/-- Hexadecimal digits in groups of eight, four, four, four and twelve. -/
def validResourceId (id : String) : Bool :=
  let groups := id.toList.splitOn '-'
  groups.map List.length = [8, 4, 4, 4, 12] ∧ ∀ group ∈ groups, group.all isHexDigit = true

inductive ReadKind where
  | datasets
  | jobs
  | attempts
  deriving DecidableEq

def ReadKind.text : ReadKind → String
  | .datasets => "datasets"
  | .jobs => "jobs"
  | .attempts => "attempts"

/-- `string | number`: an id, or the number of an attempt. -/
inductive ReadKey where
  | id (text : String)
  | number (n : Nat)
  deriving DecidableEq

structure ReadPage where
  limit : Nat
  after : Option ReadKey
  deriving DecidableEq

/-! ## `readPage` -/

/-- `/^[1-9][0-9]{0,2}$/`, `Number(rawLimit)` and the bound. -/
def readLimit (rawLimit : String) : Option Nat :=
  match rawLimit.toList with
  | [] => none
  | c :: rest =>
      if c.isDigit ∧ c ≠ '0' ∧ rest.all Char.isDigit ∧ rest.length ≤ 2 then
        let limit := (c :: rest).foldl (fun n d => n * 10 + (d.toNat - 48)) 0
        if limit > demoReadMaxLimit then none else some limit
      else none

/-- The check of `item.after`. -/
def readAfter : ReadKind → Option Json → Option ReadKey
  | .attempts, some (.number n) =>
      if n.den = 1 ∧ 1 ≤ n ∧ n ≤ 2147483647 then some (.number n.num.toNat) else none
  | .attempts, _ => none
  | _, some (.string text) => if validResourceId text then some (.id text) else none
  | _, _ => none

variable (parse : List UInt8 → Option Json)

def readCursor (kind : ReadKind) (scope : String) : Json → Option ReadKey
  | .string cursor =>
      if cursor.toList.length > 512 ∨ cursor.toList = []
          ∨ cursor.toList.all Base64Url.isDigit = false then none
      else
        let buffer := Base64Url.decode cursor.toList
        if Base64Url.encode buffer ≠ cursor.toList then none
        else
          match parse buffer with
          | some (.object item) =>
              if ",".intercalate ((item.map (·.1)).insertionSort (· ≤ ·)) ≠ "after,kind,scope,v"
                  ∨ Json.isNumber (item.lookup "v") 1 = false
                  ∨ Json.isText (item.lookup "kind") kind.text = false
                  ∨ Json.isText (item.lookup "scope") scope = false then none
              else readAfter kind (item.lookup "after")
          | _ => none
  | _ => none

/-- Everything that is refused is refused with the same error. -/
def readPage (query : Json) (kind : ReadKind) (scope : String) : Except DemoReadError ReadPage :=
  match query with
  | .object values =>
      if values.any fun value => value.1 ≠ "limit" && value.1 ≠ "cursor" then
        .error .invalidRequest
      else
        let rawLimit := match values.lookup "limit" with
          | none | some .null => some "20"
          | some (.string text) => some text
          | some _ => none
        match rawLimit.bind readLimit with
        | none => .error .invalidRequest
        | some limit =>
            match values.lookup "cursor" with
            | none => .ok ⟨limit, none⟩
            | some cursor =>
                match readCursor parse kind scope cursor with
                | none => .error .invalidRequest
                | some after => .ok ⟨limit, some after⟩
  | _ => .error .invalidRequest

/-! ## `publicPage` -/

structure PublicPage (T : Type) where
  items : List T
  nextCursor : Option String

/-- `JSON.stringify` of a key. -/
def ReadKey.written : ReadKey → List Char
  | .id text => Json.writeText text.toList
  | .number n => Nat.toDigits 10 n

/-- `JSON.stringify({ v: 1, kind, scope, after })`. -/
def cursorJson (kind : ReadKind) (scope : String) (after : ReadKey) : List Char :=
  Json.writeObject [("v", ['1']), ("kind", Json.writeText kind.text.toList),
    ("scope", Json.writeText scope.toList), ("after", after.written)]

def cursorText (kind : ReadKind) (scope : String) (after : ReadKey) : String :=
  String.ofList (Base64Url.encode (utf8 (cursorJson kind scope after)))

def publicPage {T : Type} (rows : List T) (page : ReadPage) (kind : ReadKind) (scope : String)
    (key : T → ReadKey) : PublicPage T :=
  let items := rows.take page.limit
  { items := items
    nextCursor :=
      if rows.length > page.limit then
        items.getLast?.map fun item => cursorText kind scope (key item)
      else none }

/-! ## Ids -/

theorem isPlain_of_isHexDigit {c : Char} (h : isHexDigit c = true) : Json.isPlain c = true := by
  rw [isHexDigit, decide_eq_true_eq] at h
  rw [Json.isPlain, decide_eq_true_eq]
  omega

theorem validResourceId_plain {id : String} (h : validResourceId id = true) :
    id.toList.length = 36 ∧ ∀ c ∈ id.toList, Json.isPlain c = true := by
  rw [validResourceId, decide_eq_true_eq] at h
  obtain ⟨hlengths, hhex⟩ := h
  have hjoin : ['-'].intercalate (id.toList.splitOn '-') = id.toList := List.intercalate_splitOn '-'
  generalize id.toList.splitOn '-' = groups at hlengths hhex hjoin
  rcases groups with _ | ⟨a, _ | ⟨b, _ | ⟨c, _ | ⟨d, _ | ⟨e, _ | ⟨f, rest⟩⟩⟩⟩⟩⟩
  all_goals
    simp only [List.map_cons, List.map_nil, List.cons.injEq, reduceCtorEq, and_false] at hlengths
  obtain ⟨ha, hb, hc, hd, he, -⟩ := hlengths
  have hchars : ∀ x ∈ [a, b, c, d, e].flatten, Json.isPlain x = true := by
    intro x hx
    obtain ⟨group, hgroup, hx⟩ := List.mem_flatten.mp hx
    exact isPlain_of_isHexDigit (List.all_eq_true.mp (hhex group hgroup) x hx)
  rw [← hjoin]
  refine ⟨?_, fun x hx => ?_⟩
  · simp [List.intercalate, ha, hb, hc, hd, he]
  · by_cases hhyphen : x = '-'
    · rw [hhyphen]
      decide
    · refine hchars x ?_
      simp only [List.intercalate, List.intersperse, List.flatten_cons, List.flatten_nil,
        List.mem_append, List.mem_singleton, hhyphen, false_or] at hx ⊢
      exact hx

/-- A key as the pages of this kind have it. -/
def ReadKey.Fits (kind : ReadKind) : ReadKey → Prop
  | .id text => kind ≠ .attempts ∧ validResourceId text = true
  | .number n => kind = .attempts ∧ 1 ≤ n ∧ n ≤ 2147483647

/-! ## Cursors -/

theorem written_id {text : String} (h : validResourceId text = true) :
    (ReadKey.id text).written = '\x22' :: text.toList ++ ['\x22'] :=
  Json.writeText_plain (validResourceId_plain h).2

theorem kind_plain (kind : ReadKind) : ∀ c ∈ kind.text.toList, Json.isPlain c = true := by
  cases kind <;> exact List.all_eq_true.mp (by decide)

variable {kind : ReadKind} {scope : String} {after : ReadKey}

theorem written_bounds (h : after.Fits kind) :
    after.written.length ≤ 38 ∧ ∀ c ∈ after.written, c.toNat ≤ 127 := by
  have hplain : ∀ c, Json.isPlain c = true → c.toNat ≤ 127 := by
    intro c hc
    rw [Json.isPlain, decide_eq_true_eq] at hc
    omega
  cases after with
  | id text =>
      obtain ⟨hlength, hchars⟩ := validResourceId_plain h.2
      rw [written_id h.2]
      refine ⟨by simp [hlength], fun c hc => ?_⟩
      simp only [List.cons_append, List.mem_cons, List.mem_append, List.not_mem_nil, or_false] at hc
      rcases hc with rfl | hc | rfl
      · decide
      · exact hplain c (hchars c hc)
      · decide
  | number n =>
      obtain ⟨-, -, hn⟩ := h
      have hlength : (Nat.toDigits 10 n).length ≤ 10 :=
        (Nat.length_toDigits_le_iff (by decide) (by decide)).mpr (by omega)
      refine ⟨Nat.le_trans hlength (by decide), fun c hc => ?_⟩
      have hdigit := Nat.isDigit_of_mem_toDigits (by decide) (by decide) hc
      rw [Char.isDigit_iff_toNat] at hdigit
      exact Nat.le_trans hdigit.2 (by decide)

/-- The text of a cursor, where no character needs an escape. -/
theorem cursorJson_eq (hscope : ∀ c ∈ scope.toList, Json.isPlain c = true) :
    cursorJson kind scope after
      = "\x7b\x22v\x22:1,\x22kind\x22:\x22".toList ++ kind.text.toList
        ++ "\x22,\x22scope\x22:\x22".toList ++ scope.toList ++ "\x22,\x22after\x22:".toList
        ++ after.written ++ ['\x7d'] := by
  unfold cursorJson Json.writeObject
  rw [Json.writeText_plain (kind_plain kind), Json.writeText_plain hscope]
  simp [Json.writeText, Json.escape]

theorem ascii_of_all {text : List Char} (h : text.all (fun c => c.toNat ≤ 127) = true) :
    ∀ c ∈ text, c.toNat ≤ 127 := by
  intro c hc
  exact of_decide_eq_true (List.all_eq_true.mp h c hc)

theorem cursorJson_ascii (hscope : ∀ c ∈ scope.toList, Json.isPlain c = true)
    (h : after.Fits kind) : ∀ c ∈ cursorJson kind scope after, c.toNat ≤ 127 := by
  have hplain : ∀ {text : List Char}, (∀ c ∈ text, Json.isPlain c = true) →
      ∀ c ∈ text, c.toNat ≤ 127 := by
    intro text htext c hc
    have := htext c hc
    rw [Json.isPlain, decide_eq_true_eq] at this
    omega
  rw [cursorJson_eq hscope]
  simp only [List.forall_mem_append]
  exact ⟨⟨⟨⟨⟨⟨ascii_of_all (by decide), hplain (kind_plain kind)⟩, ascii_of_all (by decide)⟩,
    hplain hscope⟩, ascii_of_all (by decide)⟩, (written_bounds h).2⟩, ascii_of_all (by decide)⟩

theorem length_cursorJson (hscope : ∀ c ∈ scope.toList, Json.isPlain c = true)
    (hlength : scope.toList.length ≤ 100) (h : after.Fits kind) :
    (cursorJson kind scope after).length ≤ 250 := by
  obtain ⟨hafter, -⟩ := written_bounds h
  have hkind : kind.text.toList.length ≤ 8 := by cases kind <;> decide
  have hstart : "\x7b\x22v\x22:1,\x22kind\x22:\x22".toList.length ≤ 20 := by decide
  have hmiddle : "\x22,\x22scope\x22:\x22".toList.length ≤ 20 := by decide
  have hend : "\x22,\x22after\x22:".toList.length ≤ 20 := by decide
  have hlast : ['\x7d'].length = 1 := rfl
  rw [cursorJson_eq hscope]
  simp only [List.length_append]
  omega

/-- The fields of a cursor. -/
def cursorFields (kind : ReadKind) (scope : String) (after : ReadKey) : List (String × Json) :=
  [("v", .number 1), ("kind", .string kind.text), ("scope", .string scope),
    ("after", match after with
      | .id text => .string text
      | .number n => .number n)]

theorem names_cursorFields : (cursorFields kind scope after).map (·.1)
    = ["v", "kind", "scope", "after"] := rfl

theorem lookup_v : (cursorFields kind scope after).lookup "v" = some (.number 1) := rfl

theorem lookup_kind : (cursorFields kind scope after).lookup "kind" = some (.string kind.text) :=
  rfl

theorem lookup_scope : (cursorFields kind scope after).lookup "scope" = some (.string scope) :=
  rfl

/-- What is relied on of `JSON.parse`: it reads the texts of cursors back. -/
def ReadsCursors (parse : List UInt8 → Option Json) : Prop :=
  ∀ kind scope after, (∀ c ∈ scope.toList, Json.isPlain c = true) → after.Fits kind →
    parse (utf8 (cursorJson kind scope after)) = some (.object (cursorFields kind scope after))

theorem readAfter_fits (h : after.Fits kind) :
    readAfter kind ((cursorFields kind scope after).lookup "after") = some after := by
  cases after with
  | id text =>
      obtain ⟨hkind, hid⟩ := h
      cases kind with
      | attempts => exact absurd rfl hkind
      | datasets => exact if_pos hid
      | jobs => exact if_pos hid
  | number n =>
      obtain ⟨rfl, hone, hmax⟩ := h
      refine (if_pos ⟨rfl, ?_, ?_⟩).trans rfl
      · exact_mod_cast hone
      · exact_mod_cast hmax

variable {parse : List UInt8 → Option Json} {kind' : ReadKind} {scope' : String}

theorem kindText_inj (h : kind.text = kind'.text) : kind = kind' := by
  cases kind <;> cases kind' <;> first | rfl | exact absurd h (by decide)

/-- An emitted cursor passes the checks of its text. -/
theorem cursorText_checked (hscope : ∀ c ∈ scope.toList, Json.isPlain c = true)
    (hlength : scope.toList.length ≤ 100) (h : after.Fits kind) :
    ¬ ((cursorText kind scope after).toList.length > 512 ∨ (cursorText kind scope after).toList = []
      ∨ (cursorText kind scope after).toList.all Base64Url.isDigit = false) := by
  have hshort := length_cursorJson hscope hlength h
  have hbytes := length_utf8 (cursorJson_ascii hscope h)
  have htext := Base64Url.length_encode (utf8 (cursorJson kind scope after))
  have hpos : 0 < (cursorJson kind scope after).length := by
    unfold cursorJson Json.writeObject
    exact Nat.succ_pos _
  unfold cursorText
  rw [String.toList_ofList, Base64Url.all_isDigit_encode]
  rintro (hlong | hempty | hdigit)
  · omega
  · rw [hempty, List.length_nil] at htext
    omega
  · cases hdigit

/-- What becomes of an emitted cursor. -/
theorem readCursor_cursorText (hparse : ReadsCursors parse)
    (hscope : ∀ c ∈ scope.toList, Json.isPlain c = true) (hlength : scope.toList.length ≤ 100)
    (h : after.Fits kind) :
    readCursor parse kind' scope' (.string (cursorText kind scope after))
      = if kind' = kind ∧ scope' = scope then some after else none := by
  have hchecked := cursorText_checked hscope hlength h
  unfold readCursor
  dsimp only
  rw [if_neg hchecked]
  unfold cursorText
  rw [String.toList_ofList, Base64Url.decode_encode, if_neg (not_not.mpr rfl),
    hparse kind scope after hscope h]
  dsimp only
  rw [names_cursorFields, lookup_v, lookup_kind, lookup_scope]
  by_cases hsame : kind' = kind ∧ scope' = scope
  · obtain ⟨rfl, rfl⟩ := hsame
    rw [if_pos (show kind' = kind' ∧ scope' = scope' from ⟨rfl, rfl⟩)]
    refine Eq.trans (if_neg ?_) (readAfter_fits h)
    rintro (hkeys | hv | hkind | hs)
    · exact hkeys (by decide)
    · exact absurd hv (by decide)
    · cases (Json.isText_eq_true.mpr rfl).symm.trans hkind
    · cases (Json.isText_eq_true.mpr rfl).symm.trans hs
  · rw [if_neg hsame]
    refine if_pos ?_
    by_cases hkind : kind' = kind
    · refine .inr (.inr (.inr (Bool.eq_false_iff.mpr fun hs => hsame ⟨hkind, ?_⟩)))
      cases Json.isText_eq_true.mp hs
      rfl
    · refine .inr (.inr (.inl (Bool.eq_false_iff.mpr fun hk => hkind ?_)))
      exact kindText_inj (Json.string.inj (Option.some.inj (Json.isText_eq_true.mp hk))).symm

/-! ## Queries -/

/-- The query of a client: its limit, if it gives one, and the cursor it was given. -/
def pageQuery (limit : Option Nat) (cursor : Option String) : Json :=
  .object ((limit.map fun n => ("limit", .string (toString n))).toList
    ++ (cursor.map fun c => ("cursor", .string c)).toList)

theorem readLimit_toString {n : Nat} (h : 1 ≤ n ∧ n ≤ demoReadMaxLimit) :
    readLimit (toString n) = some n := by
  have hall : ∀ n : Fin 101, 1 ≤ n.val → readLimit (toString n.val) = some n.val := by
    decide +kernel
  exact hall ⟨n, Nat.lt_succ_of_le h.2⟩ h.1

/-- A limit that is accepted. -/
def FitsLimit (limit : Option Nat) : Prop := ∀ n ∈ limit, 1 ≤ n ∧ n ≤ demoReadMaxLimit

theorem readPage_pageQuery {limit : Option Nat} (h : FitsLimit limit) (cursor : Option String) :
    readPage parse (pageQuery limit cursor) kind scope
      = match cursor with
        | none => .ok ⟨limit.getD 20, none⟩
        | some cursor =>
            match readCursor parse kind scope (.string cursor) with
            | none => .error .invalidRequest
            | some after => .ok ⟨limit.getD 20, some after⟩ := by
  cases limit with
  | none => cases cursor <;> rfl
  | some n =>
      have hn := readLimit_toString (h n rfl)
      cases cursor with
      | none =>
          show (match readLimit (toString n) with | none => _ | some limit => _) = _
          rw [hn]
          rfl
      | some cursor =>
          show (match readLimit (toString n) with | none => _ | some limit => _) = _
          rw [hn]
          rfl

end CostEngine
