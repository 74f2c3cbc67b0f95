/-! Binary floating-point numbers of 64 bits, held as an exact product of a
significand and a power of two. Rounding takes the nearest such number and, at a
tie, the even significand. -/

namespace AuthorWatch

/-- A finite number is `significand * 2 ^ exponent` up to sign. -/
inductive Binary64 where
  | nan
  | infinite (negative : Bool)
  | finite (negative : Bool) (significand : Nat) (exponent : Int)
  deriving DecidableEq, Inhabited

namespace Binary64

/-- The least exponent of a significand. -/
def leastExponent : Int := -1074

/-- The largest exponent of a significand. -/
def largestExponent : Int := 971

def zero (negative : Bool) : Binary64 := finite negative 0 leastExponent

/-- The natural number nearest to a quotient; a tie goes to the even one. -/
def roundQuotient (num den : Nat) : Nat :=
  let q := num / den
  let r := num % den
  if 2 * r < den then q else if den < 2 * r then q + 1 else q + q % 2

/-- `num / den` times a power of two, as a quotient. -/
def scaled (num den : Nat) (power : Int) : Nat × Nat :=
  match power with
  | .ofNat p => (num * Nat.pow 2 p, den)
  | .negSucc p => (num, den * Nat.pow 2 (p + 1))

/-- The exponent of the largest power of two that a positive quotient reaches. -/
def floorLog2 (num den : Nat) : Int :=
  let k : Int := num.log2 - den.log2
  let (n, d) := scaled num den (-k)
  if n < d then k - 1 else k

/-- The number nearest to a quotient. -/
def ofRatio (negative : Bool) (num den : Nat) : Binary64 :=
  if num = 0 then zero negative
  else
    let exponent := max leastExponent (floorLog2 num den - 52)
    let (n, d) := scaled num den (-exponent)
    let m := roundQuotient n d
    let (m, exponent) := if m = Nat.pow 2 53 then (Nat.pow 2 52, exponent + 1) else (m, exponent)
    if largestExponent < exponent then infinite negative else finite negative m exponent

/-- The number nearest to `digits * 10 ^ exponent`. Exponents far out of range are
answered without forming the power. -/
def ofDecimal (negative : Bool) (digits : Nat) (exponent : Int) : Binary64 :=
  if digits = 0 then zero negative
  else if 310 < exponent then infinite negative
  else if exponent + (digits.log2 / 3 + 1 : Nat) < -330 then zero negative
  else match exponent with
    | .ofNat e => ofRatio negative (digits * Nat.pow 10 e) 1
    | .negSucc e => ofRatio negative digits (Nat.pow 10 (e + 1))

/-- The number nearest to an integer, if it is finite. -/
def ofInt? (n : Int) : Option Binary64 :=
  match ofRatio (n < 0) n.natAbs 1 with
  | x@(finite ..) => some x
  | _ => none

def isZero : Binary64 → Bool
  | finite _ m _ => m = 0
  | _ => false

/-- Whether a number is positive; not-a-number is not. -/
def isPositive : Binary64 → Bool
  | nan => false
  | infinite negative => !negative
  | finite negative m _ => !negative && m != 0

/-- Whether a number is at least zero, either zero included; not-a-number is not. -/
def isNonneg : Binary64 → Bool
  | nan => false
  | infinite negative => !negative
  | finite negative m _ => !negative || m == 0

/-- The integer equal to a finite number, if there is one. -/
def toInt? : Binary64 → Option Int
  | finite negative m e =>
    let (n, d) := scaled m 1 e
    if n % d = 0 then some (if negative then -(n / d : Nat) else (n / d : Nat)) else none
  | _ => none

def isFinite : Binary64 → Bool
  | finite .. => true
  | _ => false

end Binary64

end AuthorWatch
