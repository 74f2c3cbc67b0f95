import AuthorWatch.Number.Binary64
import AuthorWatch.OrderedMap

/-! JSON values. Integers have any size, floating-point numbers are exact, texts may
hold lone surrogates, and an object keeps its members in order, one for each key. -/

namespace AuthorWatch

inductive Json where
  | null
  | bool (b : Bool)
  | int (n : Int)
  | float (x : Binary64)
  | text (t : Text)
  | array (items : List Json)
  | object (members : List (Text × Json))
  deriving Inhabited

namespace Json

/-- The members of an object. -/
def members? : Json → Option (List (Text × Json))
  | object members => some members
  | _ => none

/-- The value of a member; the last one counts if a key is repeated. -/
def member? (key : Text) (members : List (Text × Json)) : Option Json :=
  Assoc.get? key members.reverse

def isNull : Json → Bool
  | null => true
  | _ => false

end Json

end AuthorWatch
