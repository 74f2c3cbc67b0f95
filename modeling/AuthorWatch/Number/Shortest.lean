import AuthorWatch.Number.Binary64
import AuthorWatch.Number.Decimal

/-! Decimal forms of floating-point numbers: the fewest digits that read back, and
a fixed count of significant digits. Both give digits and the exponent of the
first digit; a layout then decides between positional and exponent notation. -/

namespace AuthorWatch.Binary64

/-- Digits after rounding, and the power of ten of the first one. -/
structure Significant where
  digits : List Nat
  exponent : Int

/-- A quotient times a power of ten, as a quotient. -/
def timesTen (num den : Nat) (power : Int) : Nat × Nat :=
  match power with
  | .ofNat p => (num * Nat.pow 10 p, den)
  | .negSucc p => (num, den * Nat.pow 10 (p + 1))

/-- The exponent of the largest power of ten that a positive quotient reaches. -/
def floorLog10 (num den : Nat) : Int :=
  let guess := Int.fdiv (floorLog2 num den * 30103) 100000
  let reaches (e : Int) : Bool := let (n, d) := timesTen num den (-e); d ≤ n
  if reaches (guess + 1) then guess + 1 else if reaches guess then guess else guess - 1

/-- Digits of `n * 10 ^ e`, without zeros at the end. -/
def Significant.ofNat (n : Nat) (e : Int) : Significant :=
  let ds := Decimal.digits n
  let trimmed := (ds.reverse.dropWhile (· = 0)).reverse
  ⟨if trimmed.isEmpty then [0] else trimmed, e + (ds.length - 1 : Nat)⟩

/-- Whether a decimal lies among the reals that round to `m * 2 ^ e`. The ends
belong to them exactly when `m` is even; below a power of two the reals are
half as many. -/
def readsBack (m : Nat) (e : Int) (num den : Nat) : Bool :=
  -- in quarters of a unit of the last place
  let (n, d) := scaled (4 * num) den (-e)
  let low := if m = Nat.pow 2 52 ∧ leastExponent < e then 4 * m - 1 else 4 * m - 2
  let high := 4 * m + 2
  if m % 2 = 0 then low * d ≤ n ∧ n ≤ high * d else low * d < n ∧ n < high * d

/-- The best decimal with its last digit at a power of ten, if one reads back. -/
def onGrid? (m : Nat) (e : Int) (last : Int) : Option Nat :=
  let (num, den) := scaled m 1 e
  let (n, d) := timesTen num den (-last)
  let below := n / d
  let hits (c : Nat) : Bool := let (cn, cd) := timesTen c 1 last; readsBack m e cn cd
  match hits below, hits (below + 1) with
  | true, true => some (roundQuotient n d)
  | true, false => some below
  | false, true => some (below + 1)
  | false, false => none

/-- The first decimal found among grids with `count` more digits at most. -/
def shortestFrom (m : Nat) (e : Int) (last : Int) : Nat → Significant
  | 0 =>
    let (num, den) := scaled m 1 e
    let (n, d) := timesTen num den (-last)
    .ofNat (roundQuotient n d) last
  | count + 1 =>
    match onGrid? m e last with
    | some c => .ofNat c last
    | none => shortestFrom m e (last - 1) count

/-- The fewest digits that read back as `m * 2 ^ e`, and of those the nearest. -/
def shortest (m : Nat) (e : Int) : Significant :=
  if m = 0 then ⟨[0], 0⟩
  else
    let (num, den) := scaled m 1 e
    shortestFrom m e (floorLog10 num den) 16

/-- The nearest decimal with a count of significant digits. -/
def rounded (count m : Nat) (e : Int) : Significant :=
  if m = 0 then ⟨[0], 0⟩
  else
    let (num, den) := scaled m 1 e
    let last := floorLog10 num den - (count - 1 : Nat)
    let (n, d) := timesTen num den (-last)
    .ofNat (roundQuotient n d) last

/-- When a number is written positionally, and whether an integer shows its point. -/
structure Layout where
  leastExponent : Int
  exponentBound : Int
  pointZero : Bool

/-- The exponent has a sign and at least two digits. -/
def exponentText (e : Int) : Text :=
  let ds := Decimal.ofNat e.natAbs
  [.char 'e', .char (if e < 0 then '-' else '+')]
    ++ (if ds.length < 2 then .char '0' :: ds else ds)

/-- Digits with the point after the one of exponent zero. -/
def positional (s : Significant) (pointZero : Bool) : Text :=
  let ds := s.digits.map Decimal.digit
  let zeros (n : Nat) : Text := List.replicate n (.char '0')
  match s.exponent with
  | .negSucc e => "0." ++ zeros e ++ ds
  | .ofNat e =>
    let whole := ds.take (e + 1)
    let whole := whole ++ zeros (e + 1 - whole.length)
    let rest := ds.drop (e + 1)
    if rest.isEmpty then (if pointZero then whole ++ ".0" else whole) else whole ++ "." ++ rest

def Layout.write (layout : Layout) (s : Significant) : Text :=
  if layout.leastExponent ≤ s.exponent ∧ s.exponent < layout.exponentBound then
    positional s layout.pointZero
  else
    let ds := s.digits.map Decimal.digit
    let mantissa : Text := if ds.length ≤ 1 then ds else ds.take 1 ++ "." ++ ds.drop 1
    mantissa ++ exponentText s.exponent

/-- The text of a number, its finite magnitude written by `write`. -/
def textWith (write : Nat → Int → Text) : Binary64 → Text
  | nan => "nan"
  | infinite negative => if negative then "-inf" else "inf"
  | finite negative m e => if negative then .char '-' :: write m e else write m e

/-- Numbers are positional from `1e-4` up to below `1e16`, and show a point or an exponent. -/
def exactLayout : Layout := ⟨-4, 16, true⟩

/-- The text with the fewest digits that read back. -/
def toText : Binary64 → Text := textWith fun m e => exactLayout.write (shortest m e)

/-- Brief numbers are positional from `1e-4` up to below `1e6`. -/
def briefLayout : Layout := ⟨-4, 6, false⟩

/-- The text with at most six significant digits. -/
def toBriefText : Binary64 → Text := textWith fun m e => briefLayout.write (rounded 6 m e)

end AuthorWatch.Binary64
