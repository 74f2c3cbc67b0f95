import AuthorWatch.Json.Reader
import AuthorWatch.Text.Digit
import AuthorWatch.Text.Lower

/-! Settings from variables of the environment. After the lead of its name a variable
names a path, whose steps stand between doubled underscores. Its value is read as JSON
if it looks like that, and is a text otherwise. -/

namespace AuthorWatch.Environment

/-- Why the variables give no object. -/
inductive EnvironmentError where
  | integerTooLong (digits : Nat)
  | tooDeep
  /-- A path leads on through a value that is no object. -/
  | noSteps (found : Json)
  /-- A path ends inside a value that is no object. -/
  | noMembers (found : Json)

/-- The lead of the names of this program's variables. -/
def standardLead : Text := "TELEMETRY_OBSERVER"

/-- The path that a name spells, if it begins with the lead and an underscore. -/
def path? (lead name : Text) : Option (List Text) :=
  if name.startsWith (lead ++ "_") then
    some (((name.dropLeading lead).trim (· = .char '_')).lower.splitOnDouble (.char '_'))
  else none

/-- The words that are read as JSON in any case. -/
def words : List Text := ["true", "false", "null"]

/-- A text without its first point. -/
def withoutPoint : Text → Text
  | [] => []
  | g :: rest => if g = .char '.' then rest else g :: withoutPoint rest

def isEnclosed (first last : Char) (t : Text) : Bool :=
  t.head? = some (.char first) && t.getLast? = some (.char last)

/-- Whether a value is to be tried as JSON. -/
def looksLikeJson (t : Text) : Bool :=
  isEnclosed '[' ']' t || isEnclosed '\x7b' '\x7d' t || words.contains t.lower
    || (withoutPoint t).isNumeral

/-- The key whose values stay texts, since a hash may look like a number. -/
def textKey : Text := "genesis_hash"

/-- The value of a variable at a path. -/
def value (path : List Text) (t : Text) : Except EnvironmentError Json :=
  if path.contains textKey || !looksLikeJson t then .ok (.text t)
  else
    match Json.read .lenient (if words.contains t.lower then t.lower else t) with
    | .ok v => .ok v
    | .error .malformed => .ok (.text t)
    | .error .tooDeep => .error .tooDeep
    | .error (.integerTooLong digits) => .error (.integerTooLong digits)

/-- Puts a value at a path below an object, making the objects on the way. -/
def place (v : Json) : List Text → List (Text × Json) → Except EnvironmentError (List (Text × Json))
  | [], members => .ok members
  | [key], members => .ok (Assoc.insert key v members)
  | key :: next :: rest, members =>
    match Assoc.get? key members with
    | none => (place v (next :: rest) []).map fun inner => Assoc.insert key (.object inner) members
    | some (.object inner) =>
      (place v (next :: rest) inner).map fun inner => Assoc.insert key (.object inner) members
    | some found => .error (if rest.isEmpty then .noMembers found else .noSteps found)

/-- Adds a variable to the settings. -/
def add (lead : Text) (members : List (Text × Json)) (entry : Text × Text) :
    Except EnvironmentError (List (Text × Json)) :=
  match path? lead entry.1 with
  | none => .ok members
  | some path => do place (← value path entry.2) path members

/-- The settings of the variables, in their order. -/
def settings (lead : Text) (environment : List (Text × Text)) :
    Except EnvironmentError (List (Text × Json)) :=
  environment.foldlM (add lead) []

end AuthorWatch.Environment
