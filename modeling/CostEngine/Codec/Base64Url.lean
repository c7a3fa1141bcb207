import Mathlib.Data.List.Basic
import Mathlib.Data.Fin.Basic

/-!
# base64url without padding

`encode` writes three bytes as four digits of six bits, and what is left over as two or
three. `decode` reads a text of digits; what is no digit is skipped. A text is canonical if it is the encoding of
something; decoding and encoding again is what tells (`canonical_iff`), because the last
digit of a text may carry bits that no byte has.
-/

namespace Base64Url

/-! ## Six bits

Groups of three bytes and of four values. -/

/-- The values of bytes. A last group of one or two bytes is filled with zero bits. -/
def sextets : List UInt8 → List (Fin 64)
  | a :: b :: c :: rest =>
      Fin.ofNat 64 (a.toNat / 4) :: Fin.ofNat 64 (a.toNat % 4 * 16 + b.toNat / 16)
        :: Fin.ofNat 64 (b.toNat % 16 * 4 + c.toNat / 64) :: Fin.ofNat 64 (c.toNat % 64)
        :: sextets rest
  | [a, b] => [Fin.ofNat 64 (a.toNat / 4), Fin.ofNat 64 (a.toNat % 4 * 16 + b.toNat / 16),
      Fin.ofNat 64 (b.toNat % 16 * 4)]
  | [a] => [Fin.ofNat 64 (a.toNat / 4), Fin.ofNat 64 (a.toNat % 4 * 16)]
  | [] => []

/-- The bytes of digits. A single last digit, and the last bits of an incomplete group, are
dropped. -/
def bytes : List (Fin 64) → List UInt8
  | w :: x :: y :: z :: rest =>
      UInt8.ofNat (w * 4 + x / 16) :: UInt8.ofNat (x % 16 * 16 + y / 4)
        :: UInt8.ofNat (y % 4 * 64 + z) :: bytes rest
  | [w, x, y] => [UInt8.ofNat (w * 4 + x / 16), UInt8.ofNat (x % 16 * 16 + y / 4)]
  | [w, x] => [UInt8.ofNat (w * 4 + x / 16)]
  | _ => []

theorem ofNat_eq {n : Nat} {a : UInt8} (h : n = a.toNat) : UInt8.ofNat n = a := by
  rw [h, UInt8.ofNat_toNat]

/-- The zero bits that fill the last group are the ones that `bytes` drops. -/
theorem bytes_sextets (data : List UInt8) : bytes (sextets data) = data := by
  have hlt : ∀ a : UInt8, a.toNat < 256 := UInt8.toNat_lt
  fun_induction sextets data with
  | case1 a b c rest ih =>
      have ha := hlt a
      have hb := hlt b
      have hc := hlt c
      rw [bytes, ih, ofNat_eq (a := a), ofNat_eq (a := b), ofNat_eq (a := c)]
      all_goals simp only [Fin.val_ofNat]; omega
  | case2 a b =>
      have ha := hlt a
      have hb := hlt b
      rw [bytes, ofNat_eq (a := a), ofNat_eq (a := b)]
      all_goals simp only [Fin.val_ofNat]; omega
  | case3 a =>
      have ha := hlt a
      rw [bytes, ofNat_eq (a := a)]
      simp only [Fin.val_ofNat]
      omega
  | case4 => rfl

/-- Four values for three bytes, rounded up. -/
theorem length_sextets (data : List UInt8) :
    (sextets data).length = (data.length * 4 + 2) / 3 := by
  fun_induction sextets data with
  | case1 a b c rest ih =>
      simp only [List.length_cons, ih]
      omega
  | case2 a b => simp
  | case3 a => simp
  | case4 => rfl

/-! ## Digits -/

/-- The digits by value. -/
def alphabet : List Char :=
  "ABCDEFGHIJKLMNOPQRSTUVWXYZabcdefghijklmnopqrstuvwxyz0123456789-_".toList

def digit (d : Fin 64) : Char := alphabet.getD d 'A'

/-- The value of a digit, if the character is one. -/
def value? (c : Char) : Option (Fin 64) := (List.finRange 64).find? fun d => digit d = c

theorem value?_digit : ∀ d, value? (digit d) = some d := by decide +kernel

/-- `[A-Za-z0-9_-]`. -/
def isDigit (c : Char) : Bool := c.isAlphanum || c = '_' || c = '-'

theorem isDigit_digit : ∀ d, isDigit (digit d) = true := by decide +kernel

/-! ## Texts -/

def encode (data : List UInt8) : List Char := (sextets data).map digit

def decode (text : List Char) : List UInt8 := bytes (text.filterMap value?)

/-- Nothing is lost. -/
theorem decode_encode (data : List UInt8) : decode (encode data) = data := by
  unfold decode encode
  rw [List.filterMap_map]
  have hvalue : value? ∘ digit = some := funext value?_digit
  rw [hvalue, List.filterMap_some, bytes_sextets]

theorem length_encode (data : List UInt8) :
    (encode data).length = (data.length * 4 + 2) / 3 := by
  rw [encode, List.length_map, length_sextets]

theorem all_isDigit_encode (data : List UInt8) : (encode data).all isDigit = true := by
  unfold encode
  rw [List.all_map]
  exact List.all_eq_true.mpr fun d _ => isDigit_digit d

/-- Decoding and encoding again leaves exactly the encodings as they are. -/
theorem canonical_iff {text : List Char} :
    encode (decode text) = text ↔ ∃ data, text = encode data := by
  constructor
  · exact fun h => ⟨decode text, h.symm⟩
  · rintro ⟨data, rfl⟩
    rw [decode_encode]

end Base64Url
