import CostEngine.Demo.ReadPagination

/-! # `pages`, in `frontend/src/api/client.ts`

The loop sends one request after the other; `get` gives the answer to the `n`-th. An answer is
a page: the check that its fields have their types is passed. -/

namespace CostEngine

structure ApiError where
  status : Nat
  code : String
  deriving DecidableEq

namespace ApiClient

/-- A cursor that was given before. -/
def invalidResponse : ApiError := ⟨0, "INVALID_RESPONSE"⟩

variable {T : Type} (get : Nat → Option String → Except ApiError (PublicPage T))

/-- `do { … } while (cursor)`, for a number of requests. An empty cursor ends the loop too. -/
def pagesFrom : Nat → Nat → Option String → List T → List String →
    Option (Except ApiError (List T))
  | 0, _, _, _, _ => none
  | fuel + 1, n, cursor, items, seen =>
      match get n cursor with
      | .error e => some (.error e)
      | .ok page =>
          match page.nextCursor.filter (· ≠ "") with
          | none => some (.ok (items ++ page.items))
          | some next =>
              if next ∈ seen then some (.error invalidResponse)
              else pagesFrom fuel (n + 1) (some next) (items ++ page.items) (next :: seen)

/-- `pages(path)`, or nothing if the requests do not suffice. -/
def pages (fuel : Nat) : Option (Except ApiError (List T)) := pagesFrom get fuel 0 none [] []

end ApiClient

end CostEngine
