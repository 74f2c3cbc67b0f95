import AuthorWatch.Check.Basic
import AuthorWatch.Text.Blank

/-! Reading single values leniently: an integer may come as a whole floating-point
number, as a flag, or as a numeral in a text, and a number likewise. -/

namespace AuthorWatch

/-- White space around a numeral: the blank characters other than the information separators. -/
def Glyph.isWhite (g : Glyph) : Bool :=
  g.isBlank && !(0x1C ≤ g.codePoint && g.codePoint ≤ 0x1F)

namespace Numeral

/-- A sign at the start of a text: whether it is a minus, and what follows. -/
def sign : Text → Bool × Text
  | .char '-' :: rest => (true, rest)
  | .char '+' :: rest => (false, rest)
  | t => (false, t)

/-- The digits of a text in which single underscores may stand between digits. -/
def groupedDigits? (t : Text) : Option (List Nat) :=
  (t.splitOn (.char '_')).foldlM (fun ds group =>
    match Decimal.takeDigits group with
    | ([], _) => none
    | (more, []) => some (ds ++ more)
    | _ => none) []

/-- The part of a numeral before a point with only zeros after it, at least one of them. -/
def withoutZeroFraction? (t : Text) : Option Text :=
  match t.splitOn (.char '.') with
  | [whole] => some whole
  | [whole, places] =>
    if !places.isEmpty && places.all (· = .char '0') then some whole else none
  | _ => none

/-- The integer of a numeral: white space, a sign, digits, and zeros after a point. -/
def integer (t : Text) : Except Fault Int :=
  let (negative, t) := sign (t.trim Glyph.isWhite)
  match (withoutZeroFraction? t).bind groupedDigits? with
  | none => .error .unreadableInteger
  | some ds =>
    if Decimal.maxDigits < (ds.dropWhile (· = 0)).length then .error .integerTooLong
    else
      let n : Int := Decimal.value ds
      .ok (if negative then -n else n)

/-- Latin letters in lower case. -/
def lowerLatin (t : Text) : Text :=
  t.map fun
    | .char c => .char c.toLower
    | g => g

/-- The exponent that ends a numeral, if there is one; `none` if its digits are missing. -/
def exponent? : Text → Option Int
  | [] => some 0
  | .char c :: rest =>
    if c = 'e' ∨ c = 'E' then
      let (negative, rest) := sign rest
      match Decimal.takeDigits rest with
      | ([], _) => none
      | (ds, []) =>
        let n : Int := Decimal.value ds
        some (if negative then -n else n)
      | _ => none
    else none
  | _ => none

/-- A decimal number: a sign, digits before or after a point, and an exponent. -/
def decimal? (t : Text) : Option Binary64 :=
  let (negative, t) := sign t
  if lowerLatin t = "inf" ∨ lowerLatin t = "infinity" then some (.infinite negative)
  else if lowerLatin t = "nan" then some .nan
  else
    let (whole, rest) := Decimal.takeDigits t
    let (places, rest) :=
      match rest with
      | .char '.' :: rest => Decimal.takeDigits rest
      | rest => ([], rest)
    if whole.isEmpty && places.isEmpty then none
    else (exponent? rest).map fun e =>
      .ofDecimal negative (Decimal.value (whole ++ places)) (e - places.length)

/-- A text without its underscores, which stand singly and not at its ends. -/
def withoutUnderscores? (t : Text) : Option Text :=
  let pieces := t.splitOn (.char '_')
  if pieces.any List.isEmpty then none else some pieces.flatten

/-- The number of a numeral, with white space around it. -/
def number (t : Text) : Except Fault Binary64 :=
  match decimal? (t.trim Glyph.isWhite) with
  | some x => .ok x
  | none =>
    match (withoutUnderscores? t).bind fun t => decimal? (t.trim Glyph.isWhite) with
    | some x => .ok x
    | none => .error .unreadableNumber

end Numeral

namespace Json

def toText : Json → Except Fault Text
  | text t => .ok t
  | _ => .error .notText

/-- A floating-point number is an integer if it has no fraction and is below `2 ^ 63` in size. -/
def integerOfFloat (x : Binary64) : Except Fault Int :=
  if !x.isFinite then .error .notFinite
  else
    match x.toInt? with
    | none => .error .fractional
    | some n => if n.natAbs < Nat.pow 2 63 then .ok n else .error .integerTooLong

def toInteger : Json → Except Fault Int
  | int n => .ok n
  | bool b => .ok (if b then 1 else 0)
  | float x => integerOfFloat x
  | text t => Numeral.integer t
  | _ => .error .notInteger

def toNumber : Json → Except Fault Binary64
  | float x => .ok x
  | int n =>
    match Binary64.ofInt? n with
    | some x => .ok x
    | none => .error .notNumber
  | bool b => .ok (.ofRatio false (if b then 1 else 0) 1)
  | text t => Numeral.number t
  | _ => .error .notNumber

/-- The words for a flag, in any case. -/
def flagWords : List (Text × Bool) :=
  [("0", false), ("off", false), ("f", false), ("false", false), ("n", false), ("no", false),
    ("1", true), ("on", true), ("t", true), ("true", true), ("y", true), ("yes", true)]

def flagOfInteger (n : Int) : Except Fault Bool :=
  if n = 0 then .ok false else if n = 1 then .ok true else .error .unreadableFlag

def toFlag : Json → Except Fault Bool
  | bool b => .ok b
  | int n => flagOfInteger n
  | float x =>
    match integerOfFloat x with
    | .ok n => flagOfInteger n
    | .error _ => .error .notFlag
  | text t =>
    match Assoc.get? (Numeral.lowerLatin t) flagWords with
    | some b => .ok b
    | none => .error .unreadableFlag
  | _ => .error .notFlag

/-- Reads null as nothing. -/
def orNull {α : Type} (read : Json → Except Fault α) : Json → Except Fault (Option α)
  | null => .ok none
  | v => (read v).map some

end Json

namespace Check

/-- An integer of a least size. -/
def integerAtLeast (bound : Int) (v : Json) : Check Int :=
  (ofExcept v.toInteger).andThen fun n => if bound ≤ n then .ok n else .error (.notAtLeast bound)

/-- An integer above a bound. -/
def integerAbove (bound : Int) (v : Json) : Check Int :=
  (ofExcept v.toInteger).andThen fun n => if bound < n then .ok n else .error (.notAbove bound)

def text (v : Json) : Check Text := ofExcept v.toText

def integer (v : Json) : Check Int := ofExcept v.toInteger

end Check

end AuthorWatch
