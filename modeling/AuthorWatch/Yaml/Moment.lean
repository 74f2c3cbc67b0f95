import AuthorWatch.Number.Decimal
import AuthorWatch.Yaml.Basic
import AuthorWatch.Yaml.Cursor

/-! Dates and times as scalars write them: a date, and perhaps a time of day with a
fraction of a second and an offset from universal time. -/

namespace AuthorWatch.Yaml

/-- An offset from universal time. -/
structure Offset where
  negative : Bool
  hours : Nat
  minutes : Nat
  deriving DecidableEq

structure TimeOfDay where
  hour : Nat
  minute : Nat
  second : Nat
  offset : Option Offset
  deriving DecidableEq

structure Moment where
  year : Nat
  month : Nat
  day : Nat
  time : Option TimeOfDay
  /-- Whether month and day have two digits each. -/
  padded : Bool
  deriving DecidableEq

namespace Moment

/-- A number of digits within bounds, and what follows it. -/
def number? (least most : Nat) (t : Text) : Option (Nat × Nat × Text) :=
  let ds := (Decimal.takeDigits (t.take most)).1
  if ds.length < least then none else some (Decimal.value ds, ds.length, t.drop ds.length)

def after? (c : Char) : Text → Option Text
  | g :: rest => if g = .char c then some rest else none
  | [] => none

/-- What may stand between a date and a time: a letter, or gaps. -/
def timeMark? (t : Text) : Option Text :=
  match t with
  | .char 'T' :: rest => some rest
  | .char 't' :: rest => some rest
  | g :: rest => if isGap g then some (rest.dropWhile isGap) else none
  | [] => none

/-- A point and digits, which may be missing altogether. -/
def skipFraction (t : Text) : Text :=
  match after? '.' t with
  | some rest => (Decimal.takeDigits rest).2
  | none => t

/-- An offset to the end of the text: nothing, `Z`, or a sign with hours and perhaps minutes. -/
def offset? (t : Text) : Option (Option Offset) :=
  if t.isEmpty then some none
  else
    let t := t.dropWhile isGap
    let signed (negative : Bool) (t : Text) : Option (Option Offset) := do
      let (hours, _, t) ← number? 1 2 t
      if t.isEmpty then return some ⟨negative, hours, 0⟩
      let (minutes, _, t) ← number? 2 2 (← after? ':' t)
      if t.isEmpty then return some ⟨negative, hours, minutes⟩ else none
    match t with
    | [.char 'Z'] => some none
    | .char '-' :: rest => signed true rest
    | .char '+' :: rest => signed false rest
    | _ => none

def time? (t : Text) : Option TimeOfDay := do
  let (hour, _, t) ← number? 1 2 t
  let (minute, _, t) ← number? 2 2 (← after? ':' t)
  let (second, _, t) ← number? 2 2 (← after? ':' t)
  return ⟨hour, minute, second, ← offset? (skipFraction t)⟩

def parse? (t : Text) : Option Moment := do
  let (year, _, t) ← number? 4 4 t
  let (month, m, t) ← number? 1 2 (← after? '-' t)
  let (day, d, t) ← number? 1 2 (← after? '-' t)
  let padded := m = 2 && d = 2
  if t.isEmpty then return ⟨year, month, day, none, padded⟩
  return ⟨year, month, day, some (← time? (← timeMark? t)), padded⟩

/-- Whether a plain scalar of this form is a moment. A date alone has to be padded. -/
def isPlain (m : Moment) : Bool := m.time.isSome || m.padded

def isLeap (year : Nat) : Bool := year % 4 = 0 && (year % 100 ≠ 0 || year % 400 = 0)

def daysIn (year month : Nat) : Nat :=
  if month = 2 then if isLeap year then 29 else 28
  else if month ∈ [4, 6, 9, 11] then 30
  else 31

def dateFault? (m : Moment) : Option MomentFault :=
  if m.year = 0 then some (.year m.year)
  else if m.month < 1 ∨ 12 < m.month then some .month
  else if m.day < 1 ∨ daysIn m.year m.month < m.day then some .day
  else none

def Offset.seconds (o : Offset) : Int :=
  let n : Int := o.hours * 3600 + o.minutes * 60
  if o.negative then -n else n

def timeFault? (t : TimeOfDay) : Option MomentFault :=
  if 23 < t.hour then some .hour
  else if 59 < t.minute then some .minute
  else if 59 < t.second then some .second
  else none

/-- Why the moment does not exist: its offset is looked at first, then the date, then the time. -/
def fault? (m : Moment) : Option MomentFault :=
  let offset : Option MomentFault := do
    let seconds := Offset.seconds (← (← m.time).offset)
    if 86400 ≤ seconds.natAbs then some (.offset seconds) else none
  offset <|> dateFault? m <|> m.time.bind timeFault?

end Moment

end AuthorWatch.Yaml
