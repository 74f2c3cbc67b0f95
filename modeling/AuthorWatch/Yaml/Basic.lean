import AuthorWatch.Number.Decimal
import AuthorWatch.Text.Quoted

/-! What can be wrong with a YAML document. Most faults are faults of form; the others
name a scalar whose text does not fit its tag. -/

namespace AuthorWatch

/-- Why a moment does not exist. -/
inductive MomentFault where
  | year (n : Nat)
  | month
  | day
  | hour
  | minute
  | second
  /-- The offset from universal time, in seconds, is a day or more. -/
  | offset (seconds : Int)
  deriving DecidableEq

namespace MomentFault

/-- A span of seconds as whole days and the seconds left, leaving out what is zero. -/
def spanText (seconds : Int) : Text :=
  let days := seconds.fdiv 86400
  let rest := seconds.fmod 86400
  let part (name : Text) (n : Int) : List Text :=
    if n = 0 then [] else [name ++ "=" ++ Decimal.ofInt n]
  "datetime.timedelta(" ++ Text.join ", " (part "days" days ++ part "seconds" rest) ++ ")"

def message : MomentFault → Text
  | year n => "year " ++ Decimal.ofNat n ++ " is out of range"
  | month => "month must be in 1..12"
  | day => "day is out of range for month"
  | hour => "hour must be in 0..23"
  | minute => "minute must be in 0..59"
  | second => "second must be in 0..59"
  | offset seconds =>
    "offset must be a timedelta strictly between -timedelta(hours=24) and timedelta(hours=24), not "
      ++ spanText seconds

end MomentFault

inductive YamlError where
  /-- The document breaks a rule of form, or uses a tag that is not known. -/
  | malformed
  /-- Collections stand too deep in one another. -/
  | tooDeep
  /-- An escape names a number above all characters. -/
  | noCharacter (code : Nat)
  /-- A tagged number has nothing behind its sign. -/
  | emptyNumber
  | badInteger (base : Nat) (t : Text)
  | integerTooLong (digits : Nat)
  | badNumber (t : Text)
  /-- A number has so many parts that the worth of one of them is no floating-point number. -/
  | tooManyParts
  | badFlag (t : Text)
  | badTimestamp
  /-- A moment is looked for in what is no scalar. -/
  | notText
  | noMoment (fault : MomentFault)
  deriving DecidableEq

namespace YamlError

/-- Whether the fault is one of form. -/
def isForm : YamlError → Bool
  | malformed => true
  | _ => false

def message : YamlError → Text
  | malformed => "malformed document"
  | tooDeep => "maximum recursion depth exceeded"
  | noCharacter _ => "chr() arg not in range(0x110000)"
  | emptyNumber => "string index out of range"
  | badInteger base t =>
    "invalid literal for int() with base " ++ Decimal.ofNat base ++ ": " ++ t.quoted.take 200
  | integerTooLong digits =>
    "Exceeds the limit (4300 digits) for integer string conversion: value has "
      ++ Decimal.ofNat digits
      ++ " digits; use sys.set_int_max_str_digits() to increase the limit"
  | badNumber t => "could not convert string to float: " ++ t.quoted
  | tooManyParts => "int too large to convert to float"
  | badFlag t => t.quoted
  | badTimestamp => "'NoneType' object has no attribute 'groupdict'"
  | notText => "expected string or bytes-like object, got 'list'"
  | noMoment fault => fault.message

end YamlError

end AuthorWatch
