import CostEngine.Codec.Base64Url
import CostEngine.Demo.Coordinator
import Mathlib.Data.List.DropRight

/-! # The session cookie, in `demo-session.service.ts`

A header is a list of characters; what is sliced and counted are the same units on both
sides, so those beyond the basic plane need no care. -/

namespace CostEngine

/-- The characters that `trim` takes off: white space and line terminators. -/
def isWhiteSpace (c : Char) : Bool :=
  [0x9, 0xA, 0xB, 0xC, 0xD, 0x20, 0xA0, 0x1680, 0x2000, 0x2001, 0x2002, 0x2003, 0x2004, 0x2005,
    0x2006, 0x2007, 0x2008, 0x2009, 0x200A, 0x2028, 0x2029, 0x202F, 0x205F, 0x3000,
    0xFEFF].contains c.toNat

def trim (text : List Char) : List Char := (text.dropWhile isWhiteSpace).rdropWhile isWhiteSpace

/-- `header.split(';').map((part) => part.trim())`. -/
def cookieParts (header : String) : List (List Char) := (header.toList.splitOn ';').map trim

/-- `part.split('=', 1)[0]`. -/
def cookieName (part : List Char) : List Char := part.takeWhile (· ≠ '=')

def readSessionCookie (header : Option String) (name : String) :
    Except DemoError (Option String) :=
  match header with
  | none => .ok none
  | some header =>
      match (cookieParts header).filter fun part => cookieName part = name.toList with
      | [] => .ok none
      | [value] =>
          let token := value.drop (name.toList.length + 1)
          if ¬ (token.length = 43 ∧ token.all Base64Url.isDigit)
              ∨ Base64Url.encode (Base64Url.decode token) ≠ token then
            .error .sessionUnavailable
          else .ok (some (String.ofList token))
      | _ => .error .sessionUnavailable

/-- A name as the service is given it. -/
structure CookieName where
  text : String
  nonempty : text.toList ≠ []
  plain : ∀ c ∈ text.toList, c ≠ ';' ∧ c ≠ '=' ∧ isWhiteSpace c = false

theorem plain_of_all {text : List Char}
    (h : text.all (fun c => c ≠ ';' ∧ c ≠ '=' ∧ isWhiteSpace c = false) = true) :
    ∀ c ∈ text, c ≠ ';' ∧ c ≠ '=' ∧ isWhiteSpace c = false := by
  intro c hc
  exact of_decide_eq_true (List.all_eq_true.mp h c hc)

def secureSessionCookie : CookieName where
  text := "__Host-ce_demo_session"
  nonempty := by decide
  plain := plain_of_all (by decide)

def localSessionCookie : CookieName where
  text := "ce_demo_session"
  nonempty := by decide
  plain := plain_of_all (by decide)

/-- The cookie that a new session is given, with the token of `allocate`. -/
def issuedCookie (name : CookieName) (token : List UInt8) : List Char :=
  name.text.toList ++ '=' :: Base64Url.encode token

end CostEngine
