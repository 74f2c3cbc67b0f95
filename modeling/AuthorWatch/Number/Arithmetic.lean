import AuthorWatch.Number.Binary64

/-! Sums and products of floating-point numbers: the exact result, rounded once. -/

namespace AuthorWatch.Binary64

def negate : Binary64 → Binary64
  | nan => nan
  | infinite negative => infinite !negative
  | finite negative m e => finite (!negative) m e

/-- The number nearest to `m * 2 ^ e`. -/
def ofDyadic (negative : Bool) (m : Nat) (e : Int) : Binary64 :=
  let (num, den) := scaled m 1 e
  ofRatio negative num den

def isNegative : Binary64 → Bool
  | nan => false
  | infinite negative => negative
  | finite negative _ _ => negative

/-- The product has a minus sign when one factor has. Zero times infinity is not a number. -/
def mul : Binary64 → Binary64 → Binary64
  | nan, _ => nan
  | _, nan => nan
  | finite s m e, finite s' m' e' => ofDyadic (s != s') (m * m') (e + e')
  | x, y => if x.isZero || y.isZero then nan else infinite (x.isNegative != y.isNegative)

/-- A significand at a lower exponent, with its sign. -/
def atExponent (negative : Bool) (m : Nat) (e low : Int) : Int :=
  let n : Int := m * Nat.pow 2 (e - low).toNat
  if negative then -n else n

/-- A sum of zero is negative only when both parts are. Opposite infinities have no sum. -/
def add : Binary64 → Binary64 → Binary64
  | nan, _ => nan
  | _, nan => nan
  | infinite s, infinite s' => if s = s' then infinite s else nan
  | infinite s, _ => infinite s
  | _, infinite s => infinite s
  | finite s m e, finite s' m' e' =>
    let low := min e e'
    let sum := atExponent s m e low + atExponent s' m' e' low
    if sum = 0 then zero (s && s') else ofDyadic (sum < 0) sum.natAbs low

end AuthorWatch.Binary64
