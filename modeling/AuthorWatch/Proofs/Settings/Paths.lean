import AuthorWatch.Json.Basic

/-! Nested objects, seen through their paths. Two of them say the same if every path of keys leads
to the same in both, in whatever order the keys come. -/

namespace AuthorWatch.Json

/-- What stands at the end of a path: an object, whatever it holds, or another value. -/
inductive Found where
  | mapping
  | value (v : Json)

/-- What a path of keys leads to, if it leads anywhere. -/
def found? : List Text → Json → Option Found
  | [], object _ => some .mapping
  | [], v => some (.value v)
  | key :: rest, object members => (Assoc.get? key members).bind (found? rest)
  | _ :: _, _ => none

/-- Every path leads to the same. -/
def Alike (v w : Json) : Prop := ∀ path, found? path v = found? path w

@[simp] theorem found?_nil_object (members : List (Text × Json)) :
    found? [] (object members) = some .mapping := rfl

@[simp] theorem found?_cons_object (key : Text) (rest : List Text)
    (members : List (Text × Json)) :
    found? (key :: rest) (object members) = (Assoc.get? key members).bind (found? rest) := rfl

/-- A path leads on from an object only. -/
theorem exists_of_found?_cons {key : Text} {rest : List Text} {v : Json} {found : Found}
    (h : found? (key :: rest) v = some found) : ∃ members inner, v = object members
      ∧ Assoc.get? key members = some inner ∧ found? rest inner = some found := by
  cases v with
  | object members =>
    obtain ⟨inner, hget, hinner⟩ := Option.bind_eq_some_iff.mp h
    exact ⟨members, inner, rfl, hget, hinner⟩
  | _ => cases h

end AuthorWatch.Json
