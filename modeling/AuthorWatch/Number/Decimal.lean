import AuthorWatch.Text.Basic

/-! Decimal numerals of natural numbers and integers: writing, and reading back. -/

namespace AuthorWatch.Decimal

/-- The glyph of a digit below ten. -/
def digit (d : Nat) : Glyph := .char (Char.ofNat (48 + d))

/-- The digits of a number, most significant first, in front of digits already written. -/
def digitsOnto (n : Nat) (done : List Nat) : List Nat :=
  if n < 10 then n :: done else digitsOnto (n / 10) (n % 10 :: done)

def digits (n : Nat) : List Nat := digitsOnto n []

/-- The number with these digits, after the part already read. -/
def valueFrom (n : Nat) (ds : List Nat) : Nat := ds.foldl (fun n d => n * 10 + d) n

def value (ds : List Nat) : Nat := valueFrom 0 ds

theorem value_digitsOnto (n : Nat) (done : List Nat) :
    value (digitsOnto n done) = valueFrom n done := by
  fun_induction digitsOnto n done with
  | case1 n done _ => simp [value, valueFrom]
  | case2 n done _ ih =>
    rw [ih]
    simp only [valueFrom, List.foldl_cons]
    congr 1
    omega

theorem value_digits (n : Nat) : value (digits n) = n := value_digitsOnto n []

def ofNat (n : Nat) : Text := (digits n).map digit

/-- A minus sign stands before the digits of a negative number, and nothing before others. -/
def ofInt : Int → Text
  | .ofNat n => ofNat n
  | .negSucc n => .char '-' :: ofNat (n + 1)

/-- The most digits of an integer that is read or written. -/
def maxDigits : Nat := 4300

/-- Whether an integer has few enough digits to be written. -/
def isShort (n : Int) : Bool := (digits n.natAbs).length ≤ maxDigits

/-- The longest leading run of ASCII digits, and what follows it. -/
def takeDigits : Text → List Nat × Text
  | [] => ([], [])
  | g :: rest =>
    match g.digit? with
    | some d => ((d :: (takeDigits rest).1), (takeDigits rest).2)
    | none => ([], g :: rest)

end AuthorWatch.Decimal
