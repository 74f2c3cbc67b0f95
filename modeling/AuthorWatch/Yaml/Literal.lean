import AuthorWatch.Check.Scalar
import AuthorWatch.Number.Arithmetic
import AuthorWatch.Text.Base64
import AuthorWatch.Text.Digit
import AuthorWatch.Text.Lower
import AuthorWatch.Yaml.Moment

/-! The values of tagged scalars. Numbers may have underscores anywhere, and parts
between colons, each of them sixty times the next. -/

namespace AuthorWatch.Yaml.Literal

def flags : List (Text × Bool) :=
  [("yes", true), ("no", false), ("true", true), ("false", false), ("on", true), ("off", false)]

/-- The value of a word for a flag, in any case. -/
def flag (t : Text) : Except YamlError Bool :=
  match Assoc.get? t.lower flags with
  | some b => .ok b
  | none => .error (.badFlag t.lower)

def withoutBars (t : Text) : Text := t.filter (· ≠ .char '_')

/-! ### Integers -/

/-- The value of a digit in a base up to sixteen; decimal digits may be of any script. -/
def digitIn? (base : Nat) (g : Glyph) : Option Nat :=
  (g.decimal? <|> g.hexDigit?).bind fun d => if d < base then some d else none

/-- The letter after a zero that tells a base, which may be given once more. -/
def baseMark (base : Nat) : Text :=
  if base = 2 then "b" else if base = 8 then "o" else if base = 16 then "x" else []

def withoutBaseMark (base : Nat) (t : Text) : Text :=
  match t with
  | .char '0' :: mark :: rest => if Text.lower [mark] = baseMark base then rest else t
  | _ => t

/-- An integer of any size; in base ten the number of its digits is bounded. -/
def integerIn (base : Nat) (t : Text) : Except YamlError Int :=
  let (negative, magnitude) := Numeral.sign (t.trim Glyph.isWhite)
  match (withoutBaseMark base magnitude).mapM (digitIn? base) with
  | none => .error (.badInteger base t)
  | some [] => .error (.badInteger base t)
  | some ds =>
    if base = 10 ∧ Decimal.maxDigits < ds.length then .error (.integerTooLong ds.length)
    else
      let n : Nat := ds.foldl (fun n d => n * base + d) 0
      .ok (if negative then -n else n)

/-- An integer without its sign: its lead tells the base. -/
def magnitude (t : Text) : Except YamlError Int :=
  match t with
  | [] => .error .emptyNumber
  | [.char '0'] => .ok 0
  | .char '0' :: .char 'b' :: rest => integerIn 2 rest
  | .char '0' :: .char 'x' :: rest => integerIn 16 rest
  | .char '0' :: _ => integerIn 8 t
  | _ =>
    if .char ':' ∈ t then do
      let parts ← (t.splitOn (.char ':')).mapM (integerIn 10)
      return parts.foldl (fun n part => n * 60 + part) 0
    else integerIn 10 t

def integer (t : Text) : Except YamlError Int :=
  let (negative, t) := Numeral.sign (withoutBars t)
  (magnitude t).map fun n => if negative then -n else n

/-! ### Numbers -/

/-- Decimal digits of any script as those of ASCII. -/
def latinDigits (t : Text) : Text := t.map fun g => (g.decimal?.map Decimal.digit).getD g

def decimal (t : Text) : Except YamlError Binary64 :=
  match Numeral.decimal? (latinDigits (t.trim Glyph.isWhite)) with
  | some x => .ok x
  | none => .error (.badNumber t)

/-- Parts from the last to the first, with the worth of one unit of the first of them.
Products and sums are rounded one by one, and so is the worth, which has to be finite. -/
def sixtieths (worth : Nat) (sum : Binary64) : List Binary64 → Except YamlError Binary64
  | [] => .ok sum
  | part :: rest =>
    match Binary64.ofInt? worth with
    | some unit => sixtieths (worth * 60) (sum.add (part.mul unit)) rest
    | none => .error .tooManyParts

/-- A number without its sign. -/
def numberMagnitude (t : Text) : Except YamlError Binary64 :=
  if t = ".inf" then .ok (.infinite false)
  else if t = ".nan" then .ok .nan
  else if .char ':' ∈ t then do
    let parts ← (t.splitOn (.char ':')).mapM decimal
    sixtieths 1 (.zero false) parts.reverse
  else decimal t

def number (t : Text) : Except YamlError Binary64 :=
  let t := (withoutBars t).lower
  if t.isEmpty then .error .emptyNumber
  else
    let (negative, t) := Numeral.sign t
    (numberMagnitude t).map fun x => if negative then x.negate else x

/-! ### Bytes and moments -/

def bytes (t : Text) : Except YamlError (List UInt8) :=
  match Base64.decode? t with
  | some bytes => .ok bytes
  | none => .error .malformed

/-- The moment of a text, which may have a line feed at its end. -/
def moment (t : Text) : Except YamlError Moment :=
  let t := if t.getLast? = some (.char '\n') then t.dropLast else t
  match Moment.parse? t with
  | none => .error .badTimestamp
  | some m =>
    match m.fault? with
    | some fault => .error (.noMoment fault)
    | none => .ok m

end AuthorWatch.Yaml.Literal
