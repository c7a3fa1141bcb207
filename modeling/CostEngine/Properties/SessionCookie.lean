import CostEngine.Demo.SessionCookie

/-! # Reading the session cookie inverts issuing it -/

namespace CostEngine

/-- What follows the first `=`. -/
def cookieValue (part : List Char) : List Char := (part.dropWhile (· ≠ '=')).drop 1

/-- The parts of a header that have the name. -/
def sessionParts (header : String) (name : CookieName) : List (List Char) :=
  (cookieParts header).filter fun part => cookieName part = name.text.toList

structure ReadsIssued (name : CookieName) : Prop where
  undefined_iff : ∀ header, readSessionCookie (some header) name.text = .ok none ↔
    ∀ part ∈ cookieParts header, cookieName part ≠ name.text.toList
  token_iff : ∀ header token, readSessionCookie (some header) name.text = .ok (some token) ↔
    ∃ part bytes, sessionParts header name = [part] ∧ bytes.length = 32
      ∧ cookieValue part = Base64Url.encode bytes ∧ token.toList = cookieValue part
  throws : ∀ header, (∀ result, readSessionCookie (some header) name.text ≠ .ok result) →
    readSessionCookie (some header) name.text = .error .sessionUnavailable
  /-- The other cookies have other names, and there may be white space around each. -/
  issued : ∀ (token : List UInt8) before space space' after, token.length = 32 →
    (∀ part ∈ before ++ after, ';' ∉ part ∧ cookieName (trim part) ≠ name.text.toList) →
    (∀ c ∈ space ++ space', isWhiteSpace c = true) →
    readSessionCookie (some (String.ofList ([';'].intercalate
        (before ++ (space ++ issuedCookie name token ++ space') :: after)))) name.text
      = .ok (some (String.ofList (Base64Url.encode token)))
  injective : ∀ header token header' token',
    readSessionCookie (some header) name.text = .ok (some token) →
    readSessionCookie (some header') name.text = .ok (some token') →
    Base64Url.decode token.toList = Base64Url.decode token'.toList → token = token'
  twice : ∀ header, 2 ≤ (sessionParts header name).length →
    readSessionCookie (some header) name.text = .error .sessionUnavailable

variable {name : CookieName} {header : String} {part text space space' : List Char} {c : Char}
  {token : List UInt8}

/-! ## The value of a part -/

theorem drop_cookieName (part : List Char) :
    part.drop ((cookieName part).length + 1) = cookieValue part := by
  have hsplit : cookieName part ++ part.dropWhile (· ≠ '=') = part :=
    List.takeWhile_append_dropWhile
  have hdrop : part.drop (cookieName part).length = part.dropWhile (· ≠ '=') :=
    calc part.drop (cookieName part).length
        = (cookieName part ++ part.dropWhile (· ≠ '=')).drop (cookieName part).length := by
          rw [hsplit]
      _ = part.dropWhile (· ≠ '=') := List.drop_left
  rw [← List.drop_drop, hdrop, cookieValue]

/-- The pattern and the re-encoding admit the canonical texts of 32 bytes. -/
theorem accepted_iff : ¬ (¬ (text.length = 43 ∧ text.all Base64Url.isDigit)
      ∨ Base64Url.encode (Base64Url.decode text) ≠ text)
    ↔ ∃ bytes : List UInt8, bytes.length = 32 ∧ text = Base64Url.encode bytes := by
  rw [not_or, not_not, not_not, Base64Url.canonical_iff]
  constructor
  · rintro ⟨⟨hlength, -⟩, bytes, rfl⟩
    refine ⟨bytes, ?_, rfl⟩
    rw [Base64Url.length_encode] at hlength
    omega
  · rintro ⟨bytes, hlength, rfl⟩
    refine ⟨⟨?_, Base64Url.all_isDigit_encode bytes⟩, bytes, rfl⟩
    rw [Base64Url.length_encode, hlength]

/-! ## The three answers -/

theorem read_none (h : sessionParts header name = []) :
    readSessionCookie (some header) name.text = .ok none := by
  unfold sessionParts at h
  unfold readSessionCookie
  simp only [h]

theorem read_many (h : 2 ≤ (sessionParts header name).length) :
    readSessionCookie (some header) name.text = .error .sessionUnavailable := by
  unfold sessionParts at h
  unfold readSessionCookie
  dsimp only
  split
  · rename_i hparts
    rw [hparts] at h
    cases h
  · rename_i value hparts
    rw [hparts] at h
    exact absurd h (by simp)
  · rfl

theorem read_one (h : sessionParts header name = [part]) :
    (∃ bytes : List UInt8, bytes.length = 32 ∧ cookieValue part = Base64Url.encode bytes
      ∧ readSessionCookie (some header) name.text
        = .ok (some (String.ofList (Base64Url.encode bytes))))
    ∨ (¬ ∃ bytes : List UInt8, bytes.length = 32 ∧ cookieValue part = Base64Url.encode bytes)
      ∧ readSessionCookie (some header) name.text = .error .sessionUnavailable := by
  have hname : cookieName part = name.text.toList := by
    have hmem : part ∈ sessionParts header name := h ▸ List.mem_cons_self
    exact of_decide_eq_true (List.mem_filter.mp hmem).2
  have hvalue : part.drop (name.text.toList.length + 1) = cookieValue part :=
    hname ▸ drop_cookieName part
  unfold sessionParts at h
  unfold readSessionCookie
  simp only [h, hvalue]
  split
  · rename_i hrejected
    exact .inr ⟨fun hbytes => accepted_iff.mpr hbytes hrejected, rfl⟩
  · rename_i haccepted
    obtain ⟨bytes, hlength, heq⟩ := accepted_iff.mp haccepted
    exact .inl ⟨bytes, hlength, heq, by rw [heq]⟩

/-! ## What was issued -/

theorem semicolon_notMem_of_white (h : ∀ c ∈ space, isWhiteSpace c = true) : ';' ∉ space :=
  fun hmem => absurd (h _ hmem) (by decide)

theorem plain_digit : ∀ d, Base64Url.digit d ≠ ';'
    ∧ isWhiteSpace (Base64Url.digit d) = false := by decide +kernel

/-- No character of an issued cookie separates or is trimmed. -/
theorem plain_issuedCookie (h : c ∈ issuedCookie name token) :
    c ≠ ';' ∧ isWhiteSpace c = false := by
  rcases List.mem_append.mp h with hmem | hmem
  · obtain ⟨hsemicolon, -, hwhite⟩ := name.plain c hmem
    exact ⟨hsemicolon, hwhite⟩
  · rcases List.mem_cons.mp hmem with rfl | hmem
    · decide
    · obtain ⟨d, -, rfl⟩ := List.mem_map.mp hmem
      exact plain_digit d

theorem dropWhile_plain (h : ∀ c ∈ text, isWhiteSpace c = false) (rest : List Char)
    (hne : text ≠ []) : (text ++ rest).dropWhile isWhiteSpace = text ++ rest := by
  cases text with
  | nil => exact absurd rfl hne
  | cons c text =>
      refine List.dropWhile_cons_of_neg ?_
      rw [h c List.mem_cons_self]
      exact Bool.false_ne_true

theorem trim_plain (hspace : ∀ c ∈ space, isWhiteSpace c = true)
    (hspace' : ∀ c ∈ space', isWhiteSpace c = true) (h : ∀ c ∈ text, isWhiteSpace c = false)
    (hne : text ≠ []) : trim (space ++ text ++ space') = text := by
  have hreverse : ∀ c ∈ text.reverse, isWhiteSpace c = false :=
    fun c hc => h c (List.mem_reverse.mp hc)
  have hright := dropWhile_plain hreverse [] (List.reverse_ne_nil_iff.mpr hne)
  rw [List.append_nil] at hright
  unfold trim List.rdropWhile
  rw [List.append_assoc, List.dropWhile_append_of_pos hspace, dropWhile_plain h space' hne,
    List.reverse_append,
    List.dropWhile_append_of_pos fun c hc => hspace' c (List.mem_reverse.mp hc), hright,
    List.reverse_reverse]

theorem trim_issuedCookie (h : ∀ c ∈ space ++ space', isWhiteSpace c = true) :
    trim (space ++ issuedCookie name token ++ space') = issuedCookie name token :=
  trim_plain (fun c hc => h c (List.mem_append_left _ hc))
    (fun c hc => h c (List.mem_append_right _ hc)) (fun _ hc => (plain_issuedCookie hc).2)
    (List.append_ne_nil_of_left_ne_nil name.nonempty _)

theorem takeWhile_issuedCookie : (issuedCookie name token).takeWhile (· ≠ '=') = name.text.toList
    ∧ (issuedCookie name token).dropWhile (· ≠ '=') = '=' :: Base64Url.encode token := by
  have hname : ∀ c ∈ name.text.toList, decide (c ≠ '=') = true :=
    fun c hc => decide_eq_true (name.plain c hc).2.1
  unfold issuedCookie
  rw [List.takeWhile_append_of_pos hname, List.dropWhile_append_of_pos hname]
  exact ⟨List.append_nil _, rfl⟩

/-- The parts of a header that is joined from them. -/
theorem cookieParts_intercalate {parts : List (List Char)} (hne : parts ≠ [])
    (h : ∀ part ∈ parts, ';' ∉ part) :
    cookieParts (String.ofList ([';'].intercalate parts)) = parts.map trim := by
  rw [cookieParts, String.toList_ofList, List.splitOn_intercalate _ h hne]

theorem sessionParts_issued (token : List UInt8) {before after : List (List Char)}
    (hothers : ∀ part ∈ before ++ after,
      ';' ∉ part ∧ cookieName (trim part) ≠ name.text.toList)
    (hspace : ∀ c ∈ space ++ space', isWhiteSpace c = true) :
    sessionParts (String.ofList ([';'].intercalate
      (before ++ (space ++ issuedCookie name token ++ space') :: after))) name
      = [issuedCookie name token] := by
  have hnone : ∀ parts : List (List Char), (∀ part ∈ parts, part ∈ before ++ after) →
      (parts.map trim).filter (fun part => cookieName part = name.text.toList) = [] := by
    intro parts hparts
    refine List.filter_eq_nil_iff.mpr fun part hpart hname => ?_
    obtain ⟨part, hmem, rfl⟩ := List.mem_map.mp hpart
    exact (hothers part (hparts part hmem)).2 (of_decide_eq_true hname)
  have hplain : ∀ part ∈ before ++ (space ++ issuedCookie name token ++ space') :: after,
      ';' ∉ part := by
    intro part hpart hmem
    rcases List.mem_append.mp hpart with hpart | hpart
    · exact (hothers part (List.mem_append_left _ hpart)).1 hmem
    · rcases List.mem_cons.mp hpart with rfl | hpart
      · rcases List.mem_append.mp hmem with hmem | hmem
        · rcases List.mem_append.mp hmem with hmem | hmem
          · exact semicolon_notMem_of_white
              (fun c hc => hspace c (List.mem_append_left _ hc)) hmem
          · exact (plain_issuedCookie hmem).1 rfl
        · exact semicolon_notMem_of_white
            (fun c hc => hspace c (List.mem_append_right _ hc)) hmem
      · exact (hothers part (List.mem_append_right _ hpart)).1 hmem
  have hissued : decide (cookieName (issuedCookie name token) = name.text.toList) = true :=
    decide_eq_true takeWhile_issuedCookie.1
  unfold sessionParts
  rw [cookieParts_intercalate (by simp) hplain, List.map_append, List.map_cons,
    trim_issuedCookie hspace, List.filter_append, hnone before fun _ => List.mem_append_left _,
    List.filter_cons, if_pos hissued, hnone after fun _ => List.mem_append_right _]
  rfl

/-! ## The claim -/

theorem read_of_length (h : (sessionParts header name).length ≠ 1) :
    sessionParts header name = [] ∨ 2 ≤ (sessionParts header name).length := by
  cases hparts : sessionParts header name with
  | nil => exact .inl rfl
  | cons part rest =>
      rw [hparts] at h
      cases rest with
      | nil => exact absurd rfl h
      | cons part' rest => exact .inr (by simp)

/-- The value of the one part with the name, if it is canonical. -/
theorem read_token_iff {token : String} :
    readSessionCookie (some header) name.text = .ok (some token) ↔
      ∃ part bytes, sessionParts header name = [part] ∧ bytes.length = 32
        ∧ cookieValue part = Base64Url.encode bytes ∧ token.toList = cookieValue part := by
  by_cases hlength : (sessionParts header name).length = 1
  · obtain ⟨part, hpart⟩ := List.length_eq_one_iff.mp hlength
    rcases read_one hpart with ⟨bytes, hbytes, hvalue, hread⟩ | ⟨hnot, hread⟩
    · rw [hread]
      constructor
      · rintro ⟨⟩
        exact ⟨part, bytes, hpart, hbytes, hvalue, hvalue ▸ String.toList_ofList⟩
      · rintro ⟨part', bytes', hpart', -, -, htoken⟩
        cases hpart.symm.trans hpart'
        rw [← hvalue, ← htoken, String.ofList_toList]
    · rw [hread]
      refine iff_of_false nofun ?_
      rintro ⟨part', bytes, hpart', hbytes, hvalue, -⟩
      cases hpart.symm.trans hpart'
      exact hnot ⟨bytes, hbytes, hvalue⟩
  · have hno : ¬ ∃ part bytes, sessionParts header name = [part] ∧ bytes.length = 32
        ∧ cookieValue part = Base64Url.encode bytes ∧ token.toList = cookieValue part :=
      fun ⟨part, _, hpart, _⟩ => hlength (hpart ▸ rfl)
    rcases read_of_length hlength with hnil | hmany
    · rw [read_none hnil]
      exact iff_of_false nofun hno
    · rw [read_many hmany]
      exact iff_of_false nofun hno

theorem read_undefined_iff : readSessionCookie (some header) name.text = .ok none ↔
    sessionParts header name = [] := by
  refine ⟨fun hread => ?_, read_none⟩
  by_contra hne
  by_cases hlength : (sessionParts header name).length = 1
  · obtain ⟨part, hpart⟩ := List.length_eq_one_iff.mp hlength
    rcases read_one hpart with ⟨_, _, _, h⟩ | ⟨_, h⟩
    · cases hread.symm.trans h
    · cases hread.symm.trans h
  · rcases read_of_length hlength with hnil | hmany
    · exact hne hnil
    · cases hread.symm.trans (read_many hmany)

theorem session_cookie_inverts (name : CookieName) : ReadsIssued name where
  undefined_iff header := by
    rw [read_undefined_iff, sessionParts, List.filter_eq_nil_iff]
    exact forall₂_congr fun part _ => not_congr decide_eq_true_iff
  token_iff header token := read_token_iff
  throws header h := by
    cases hread : readSessionCookie (some header) name.text with
    | ok result => exact absurd hread (h result)
    | error e =>
        by_cases hlength : (sessionParts header name).length = 1
        · obtain ⟨part, hpart⟩ := List.length_eq_one_iff.mp hlength
          rcases read_one hpart with ⟨_, _, _, h⟩ | ⟨_, h⟩
          · cases hread.symm.trans h
          · exact hread.symm.trans h
        · rcases read_of_length hlength with hnil | hmany
          · cases hread.symm.trans (read_none hnil)
          · exact hread.symm.trans (read_many hmany)
  issued token before space space' after hlength hothers hspace := by
    have hparts := sessionParts_issued token hothers hspace
    rw [read_token_iff]
    refine ⟨_, token, hparts, hlength, ?_, ?_⟩
    · rw [cookieValue, takeWhile_issuedCookie.2]
      rfl
    · rw [cookieValue, takeWhile_issuedCookie.2, String.toList_ofList]
      rfl
  injective header token header' token' h h' hsame := by
    obtain ⟨part, bytes, -, -, hvalue, htoken⟩ := read_token_iff.mp h
    obtain ⟨part', bytes', -, -, hvalue', htoken'⟩ := read_token_iff.mp h'
    rw [htoken, htoken', hvalue, hvalue', Base64Url.decode_encode, Base64Url.decode_encode]
      at hsame
    rw [← String.toList_inj, htoken, htoken', hvalue, hvalue', hsame]
  twice header := read_many

end CostEngine
