import AuthorWatch.Json.Basic
import Mathlib.Tactic.Common

/-! Equality of JSON values is decided by going through both. -/

namespace AuthorWatch.Json

mutual

/-- Whether two values are the same. -/
def same : Json → Json → Bool
  | null, null => true
  | bool a, bool b => a == b
  | int m, int n => m == n
  | float x, float y => x == y
  | text s, text t => s == t
  | array xs, array ys => sameItems xs ys
  | object xs, object ys => sameMembers xs ys
  | _, _ => false

def sameItems : List Json → List Json → Bool
  | [], [] => true
  | x :: xs, y :: ys => same x y && sameItems xs ys
  | _, _ => false

def sameMembers : List (Text × Json) → List (Text × Json) → Bool
  | [], [] => true
  | (s, x) :: xs, (t, y) :: ys => s == t && same x y && sameMembers xs ys
  | _, _ => false

end

mutual

theorem same_iff : ∀ v w : Json, same v w = true ↔ v = w
  | null, w => by cases w <;> simp [same]
  | bool _, w => by cases w <;> simp [same]
  | int _, w => by cases w <;> simp [same]
  | float _, w => by cases w <;> simp [same]
  | text _, w => by cases w <;> simp [same]
  | array xs, w => by cases w <;> simp [same, sameItems_iff xs]
  | object xs, w => by cases w <;> simp [same, sameMembers_iff xs]

theorem sameItems_iff : ∀ xs ys : List Json, sameItems xs ys = true ↔ xs = ys
  | [], ys => by cases ys <;> simp [sameItems]
  | x :: xs, ys => by cases ys <;> simp [sameItems, same_iff x, sameItems_iff xs]

theorem sameMembers_iff : ∀ xs ys : List (Text × Json), sameMembers xs ys = true ↔ xs = ys
  | [], ys => by cases ys <;> simp [sameMembers]
  | (s, x) :: xs, ys => by
    cases ys <;> simp [sameMembers, same_iff x, sameMembers_iff xs, Prod.ext_iff]

end

instance : DecidableEq Json := fun v w => decidable_of_iff _ (same_iff v w)

end AuthorWatch.Json
