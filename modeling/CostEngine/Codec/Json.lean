import Mathlib.Algebra.Order.Ring.Rat
import Mathlib.Data.List.Basic

/-! # JSON

The values that reading a text can give, and the writer for objects. The reader is not here:
a development takes it as a parameter and says what it must read back. -/

/-- A finite number is a rational one; a text can also be too large for a double. -/
inductive Json where
  | null
  | bool (value : Bool)
  | number (value : Rat)
  | infinity (negative : Bool)
  | string (text : String)
  | array (items : List Json)
  | object (fields : List (String × Json))

namespace Json

/-- `value === text`, of a value that may be missing. -/
def isText (value : Option Json) (text : String) : Bool :=
  match value with
  | some (.string text') => text' = text
  | _ => false

/-- `value === n`. -/
def isNumber (value : Option Json) (n : Rat) : Bool :=
  match value with
  | some (.number n') => n' = n
  | _ => false

theorem isText_eq_true {value : Option Json} {text : String} :
    isText value text = true ↔ value = some (.string text) := by
  constructor
  · intro h
    unfold isText at h
    split at h
    · rw [decide_eq_true_eq] at h
      rw [h]
    · cases h
  · rintro rfl
    exact decide_eq_true rfl

/-! ## Writing -/

/-- A character of a text between quotation marks. -/
def escape (c : Char) : List Char :=
  if c = '\x22' ∨ c = '\x5c' then ['\x5c', c]
  else if c = '\x08' then ['\x5c', 'b']
  else if c = '\t' then ['\x5c', 't']
  else if c = '\n' then ['\x5c', 'n']
  else if c = '\x0c' then ['\x5c', 'f']
  else if c = '\r' then ['\x5c', 'r']
  else if c.toNat < 32 then
    ['\x5c', 'u', '0', '0', Nat.digitChar (c.toNat / 16), Nat.digitChar (c.toNat % 16)]
  else [c]

/-- A text between quotation marks. -/
def writeText (text : List Char) : List Char :=
  '\x22' :: text.flatMap escape ++ ['\x22']

/-- An object of members that are written already. -/
def writeObject (members : List (String × List Char)) : List Char :=
  let written := members.map fun m => writeText m.1.toList ++ ':' :: m.2
  '\x7b' :: (written.intersperse [',']).flatten ++ ['\x7d']

/-- Letters, digits, hyphens and colons. -/
def isPlain (c : Char) : Bool :=
  c.toNat = 45 ∨ (48 ≤ c.toNat ∧ c.toNat ≤ 58) ∨ (65 ≤ c.toNat ∧ c.toNat ≤ 90)
    ∨ (97 ≤ c.toNat ∧ c.toNat ≤ 122)

theorem escape_plain {c : Char} (h : isPlain c = true) : escape c = [c] := by
  have hne : ∀ d, isPlain d = false → c ≠ d := by
    rintro d hd rfl
    rw [hd] at h
    cases h
  have hlt : ¬ c.toNat < 32 := by
    rw [isPlain, decide_eq_true_eq] at h
    omega
  unfold escape
  rw [if_neg (not_or.mpr ⟨hne _ rfl, hne _ rfl⟩), if_neg (hne _ rfl), if_neg (hne _ rfl),
    if_neg (hne _ rfl), if_neg (hne _ rfl), if_neg (hne _ rfl), if_neg hlt]

/-- A plain text needs no escapes. -/
theorem writeText_plain {text : List Char} (h : ∀ c ∈ text, isPlain c = true) :
    writeText text = '\x22' :: text ++ ['\x22'] := by
  have hescape : text.flatMap escape = text := by
    induction text with
    | nil => rfl
    | cons c text ih =>
        rw [List.flatMap_cons, escape_plain (h c List.mem_cons_self),
          ih fun d hd => h d (List.mem_cons_of_mem _ hd)]
        rfl
  rw [writeText, hescape]

end Json

/-- The bytes of a text. -/
def utf8 (text : List Char) : List UInt8 := text.flatMap String.utf8EncodeChar

theorem utf8EncodeChar_ascii {c : Char} (h : c.toNat ≤ 127) :
    String.utf8EncodeChar c = [c.val.toUInt8] := by
  refine String.utf8EncodeChar_eq_singleton ?_
  rw [Char.utf8Size, if_pos]
  exact UInt32.le_iff_toNat_le.mpr h

/-- One byte for each character of the ASCII range. -/
theorem length_utf8 {text : List Char} (h : ∀ c ∈ text, c.toNat ≤ 127) :
    (utf8 text).length = text.length := by
  induction text with
  | nil => rfl
  | cons c text ih =>
      have hc := utf8EncodeChar_ascii (h c List.mem_cons_self)
      rw [utf8, List.flatMap_cons, List.length_append, hc, List.length_cons, Nat.add_comm]
      exact congrArg (· + 1) (ih fun d hd => h d (List.mem_cons_of_mem _ hd))

/-- Reading the bytes of an ASCII text one by one gives it back. -/
theorem map_utf8 {text : List Char} (h : ∀ c ∈ text, c.toNat ≤ 127) :
    ((utf8 text).map fun b => Char.ofNat b.toNat) = text := by
  induction text with
  | nil => rfl
  | cons c text ih =>
      have hc := h c List.mem_cons_self
      have hbyte : c.val.toUInt8.toNat = c.toNat := by
        rw [UInt32.toNat_toUInt8]
        exact Nat.mod_eq_of_lt (Nat.lt_of_le_of_lt hc (by decide))
      rw [utf8, List.flatMap_cons, utf8EncodeChar_ascii hc, List.singleton_append, List.map_cons,
        hbyte, Char.ofNat_toNat]
      exact congrArg (c :: ·) (ih fun d hd => h d (List.mem_cons_of_mem _ hd))
