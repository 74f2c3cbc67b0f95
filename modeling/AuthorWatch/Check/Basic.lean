import AuthorWatch.Json.Basic
import AuthorWatch.Number.Decimal

/-! Checks of values against the fields of a record. A check gathers the complaints
of all fields, in the order of the fields, and has a value only if there are none. -/

namespace AuthorWatch

/-- Why a value is refused. -/
inductive Fault where
  | missing
  | notText
  | notInteger
  | unreadableInteger
  | fractional
  | integerTooLong
  | notFinite
  | notNumber
  | unreadableNumber
  | notFlag
  | unreadableFlag
  | notAbove (bound : Int)
  | notAtLeast (bound : Int)
  | tooShort
  /-- A text holds a surrogate without its partner. -/
  | notUnicode
  | notObject
  | notArray
  | otherKind
  | notDocument
  | notSection (name : Text)
  | notFeedAddress (address : Text)
  | badAddress (reason : Text)
  | notLogLevel (level : Text)
  deriving DecidableEq

namespace Fault

/-- The names of the log levels, as an error about a level lists them. -/
def logLevelNames : Text := "TRACE, DEBUG, INFO, SUCCESS, WARNING, ERROR, CRITICAL"

def message : Fault → Text
  | missing => "Field required"
  | notText => "Input should be a valid string"
  | notInteger => "Input should be a valid integer"
  | unreadableInteger => "Input should be a valid integer, unable to parse string as an integer"
  | fractional => "Input should be a valid integer, got a number with a fractional part"
  | integerTooLong => "Unable to parse input string as an integer, exceeded maximum size"
  | notFinite => "Input should be a finite number"
  | notNumber => "Input should be a valid number"
  | unreadableNumber => "Input should be a valid number, unable to parse string as a number"
  | notFlag => "Input should be a valid boolean"
  | unreadableFlag => "Input should be a valid boolean, unable to interpret input"
  | notAbove bound => "Input should be greater than " ++ Decimal.ofInt bound
  | notAtLeast bound => "Input should be greater than or equal to " ++ Decimal.ofInt bound
  | tooShort => "String should have at least 1 character"
  | notUnicode =>
    "Input should be a valid string, unable to parse raw data as a unicode string"
  | notObject => "Input should be an object"
  | notArray => "Input should be a valid array"
  | otherKind => "Input should be the kind of this event"
  | notDocument => "Invalid JSON"
  | notSection name => "Input should be a valid dictionary or instance of " ++ name
  | notFeedAddress address =>
    "Telemetry URL '" ++ address ++ "' must be a ws:// or wss:// address with a host"
  | badAddress reason => "Value error, " ++ reason.withReplacements
  | notLogLevel level => "Log level '" ++ level ++ "' must be one of: " ++ logLevelNames

/-- Whether the value that the message quotes, if it quotes one, can be put into it. -/
def isShowable : Fault → Bool
  | notFeedAddress address => address.encodable
  | notLogLevel level => level.encodable
  | _ => true

end Fault

/-- A fault and the path of fields to the value it is about. -/
structure Complaint where
  location : List Text
  fault : Fault
  deriving DecidableEq

/-- A value, or every complaint about what it was to be made from. -/
inductive Check (α : Type) where
  | passed (value : α)
  | failed (complaints : List Complaint)

namespace Check

variable {α β : Type}

def complaints : Check α → List Complaint
  | passed _ => []
  | failed cs => cs

instance : Functor Check where
  map f
    | passed a => passed (f a)
    | failed cs => failed cs

/-- Both sides are checked, whichever of them fails. -/
instance : Applicative Check where
  pure := passed
  seq f x :=
    match f, x () with
    | passed f, passed a => passed (f a)
    | passed _, failed cs => failed cs
    | failed cs, passed _ => failed cs
    | failed cs, failed ds => failed (cs ++ ds)

/-- Places complaints under a field. -/
def under (key : Text) : Check α → Check α
  | passed a => passed a
  | failed cs => failed (cs.map fun c => { c with location := key :: c.location })

/-- A single value read by itself. -/
def ofExcept : Except Fault α → Check α
  | .ok a => passed a
  | .error fault => failed [⟨[], fault⟩]

/-- A further test of a value that passed. -/
def andThen (x : Check α) (f : α → Except Fault β) : Check β :=
  match x with
  | passed a => ofExcept (f a)
  | failed cs => failed cs

/-- Every element of a list, in order. -/
def each (f : α → Check β) : List α → Check (List β)
  | [] => passed []
  | a :: rest => List.cons <$> f a <*> each f rest

/-- The field of an object that has to be there. -/
def required (read : Json → Check α) (key : Text) (members : List (Text × Json)) : Check α :=
  match Json.member? key members with
  | some v => (read v).under key
  | none => failed [⟨[key], .missing⟩]

/-- The field of an object that has a default. -/
def optional (fallback : α) (read : Json → Check α) (key : Text) (members : List (Text × Json)) :
    Check α :=
  match Json.member? key members with
  | some v => (read v).under key
  | none => passed fallback

end Check

end AuthorWatch
