import AuthorWatch.Assoc
import AuthorWatch.Yaml.Moment

/-! Tags say what a node is. A plain scalar without a tag gets one by its form: words for
nothing and for flags, integers in several bases, numbers, and moments; anything else is
text. -/

namespace AuthorWatch.Yaml

inductive Tag where
  | null | flag | integer | number | binary | timestamp | orderedMap | pairs | set | text | sequence
  | mapping
  /-- The key under which other mappings are merged into one. -/
  | merge
  /-- The key of a mapping's own value. -/
  | ownValue
  | unknown
  deriving DecidableEq

namespace Tag

/-- The lead of the names of known tags. -/
def standardLead : Text := "tag:yaml.org,2002:"

def named : List (Text × Tag) :=
  [("null", .null), ("bool", .flag), ("int", .integer), ("float", .number), ("binary", .binary),
    ("timestamp", .timestamp), ("omap", .orderedMap), ("pairs", .pairs), ("set", .set),
    ("str", .text), ("seq", .sequence), ("map", .mapping), ("merge", .merge), ("value", .ownValue)]

def ofName (t : Text) : Tag :=
  if t.startsWith standardLead then (Assoc.get? (t.dropLeading standardLead) named).getD .unknown
  else .unknown

/-! ### The forms of plain scalars -/

def nullWords : List Text := ["~", "null", "Null", "NULL", ""]

def flagWords : List Text :=
  ["yes", "Yes", "YES", "no", "No", "NO", "true", "True", "TRUE", "false", "False", "FALSE", "on",
    "On", "ON", "off", "Off", "OFF"]

def infinityWords : List Text := [".inf", ".Inf", ".INF"]

def notNumberWords : List Text := [".nan", ".NaN", ".NAN"]

def withoutSign (t : Text) : Text :=
  match t with
  | .char '-' :: rest => rest
  | .char '+' :: rest => rest
  | _ => t

def isDigit (g : Glyph) : Bool := g.digit?.isSome

def isDigitOrBar (g : Glyph) : Bool := isDigit g || g = .char '_'

/-- A digit, and digits and underscores after it. -/
def isGrouped (t : Text) : Bool := t.head?.any isDigit && t.all isDigitOrBar

/-- Parts of a sexagesimal number after the first: below sixty, in one or two digits. -/
def isSixtieth (t : Text) : Bool :=
  match t.mapM Glyph.digit? with
  | some [_] => true
  | some [tens, _] => tens < 6
  | _ => false

/-- Text after a lead, all of a class, and not empty. -/
def isBased (lead : Text) (p : Glyph → Bool) (t : Text) : Bool :=
  t.startsWith lead && lead.length < t.length && (t.drop lead.length).all p

def isInteger (t : Text) : Bool :=
  let t := withoutSign t
  let nonzero := t.head?.any fun g => isDigit g && g ≠ .char '0'
  isBased "0b" (among "01_") t
    || isBased "0" (among "01234567_") t
    || isBased "0x" (fun g => g.hexDigit?.isSome || g = .char '_') t
    || t = "0"
    || (nonzero && t.all isDigitOrBar)
    || (nonzero && match t.splitOn (.char ':') with
      | first :: second :: rest => first.all isDigitOrBar && (second :: rest).all isSixtieth
      | _ => false)

/-- Nothing, or the letter of an exponent, a sign and digits. -/
def isExponent (t : Text) : Bool :=
  match t with
  | [] => true
  | mark :: sign :: ds => among "eE" mark && among "-+" sign && !ds.isEmpty && ds.all isDigit
  | _ => false

/-- A point with digits and underscores after it, and perhaps an exponent. -/
def isFraction (t : Text) : Bool :=
  match t with
  | .char '.' :: rest => isExponent (rest.dropWhile isDigitOrBar)
  | _ => false

def isNumber (t : Text) : Bool :=
  let bare := withoutSign t
  let whole := bare.takeWhile isDigitOrBar
  let rest := bare.dropWhile isDigitOrBar
  (isGrouped whole && isFraction rest)
    || (t.head? = some (.char '.') && (t.drop 1).head?.any isDigit && isFraction t)
    || (isGrouped whole && isSexagesimalFraction rest)
    || infinityWords.contains bare
    || notNumberWords.contains t
where
  /-- Sixtieths between colons, with a point and digits at the end. -/
  isSexagesimalFraction (t : Text) : Bool :=
    match t.splitOn (.char '.') with
    | [front, places] =>
      places.all isDigitOrBar && match front.splitOn (.char ':') with
        | [] :: second :: more => (second :: more).all isSixtieth
        | _ => false
    | _ => false

/-- The tag of a plain scalar. -/
def ofPlain (t : Text) : Tag :=
  if flagWords.contains t then .flag
  else if isNumber t then .number
  else if isInteger t then .integer
  else if t = "<<" then .merge
  else if nullWords.contains t then .null
  else if (Moment.parse? t).any Moment.isPlain then .timestamp
  else if t = "=" then .ownValue
  else .text

end Tag

end AuthorWatch.Yaml
