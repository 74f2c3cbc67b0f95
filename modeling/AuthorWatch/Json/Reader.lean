import AuthorWatch.Json.Basic
import AuthorWatch.Number.Decimal

/-! Reading JSON texts. Beyond the standard grammar the words `NaN`, `Infinity` and
`-Infinity` are numbers. A number without fraction and exponent is an integer. -/

namespace AuthorWatch.Json

/-- Where readers of JSON differ. -/
structure Dialect where
  /-- Deepest nesting of arrays and objects. -/
  depth : Nat
  /-- Whether an escaped surrogate may stand without its partner. -/
  loneSurrogates : Bool
  /-- Whether an array or object without members counts as a level. -/
  emptyCounts : Bool
  /-- Whether an object keeps every member of a repeated key. If not, the last value
  stands at the place of the first. -/
  keepsRepeated : Bool

/-- Feed messages and values of settings: deep nesting, and any surrogate. -/
def Dialect.lenient : Dialect := ⟨1000, true, true, false⟩

/-- Stored documents: nesting up to 200 levels that have members, and whole characters only. -/
def Dialect.document : Dialect := ⟨200, false, false, true⟩

/-- The object of the members read, in the order read. -/
def Dialect.object (dialect : Dialect) (members : List (Text × Json)) : Json :=
  .object (if dialect.keepsRepeated then members else Assoc.insertAll [] members)

inductive ReadError where
  | malformed
  | tooDeep
  | integerTooLong (digits : Nat)
  deriving DecidableEq

abbrev Parsed (α : Type) := Except ReadError (α × Text)

def isSpace : Glyph → Bool
  | .char c => c = ' ' ∨ c = '\t' ∨ c = '\n' ∨ c = '\r'
  | .surrogate _ => false

def skipSpace (t : Text) : Text := t.dropWhile isSpace

/-- The number of four hexadecimal digits, and what follows them. -/
def hex4? : Text → Option (Nat × Text)
  | a :: b :: c :: d :: rest => do
    let a ← a.hexDigit?
    let b ← b.hexDigit?
    let c ← c.hexDigit?
    let d ← d.hexDigit?
    some (((a * 16 + b) * 16 + c) * 16 + d, rest)
  | _ => none

/-- The code point of a pair of surrogates, if the numbers form one. -/
def pair? (high low : Nat) : Option Glyph :=
  if 0xD800 ≤ high ∧ high < 0xDC00 ∧ 0xDC00 ≤ low ∧ low < 0xE000 then
    Glyph.ofNat? (0x10000 + (high - 0xD800) * 0x400 + (low - 0xDC00))
  else none

/-- The low surrogate escaped at the start of a text, joined to a high one. -/
def partner? (high : Nat) : Text → Option (Glyph × Text)
  | .char '\\' :: .char 'u' :: rest => do
    let (low, rest) ← hex4? rest
    let g ← pair? high low
    some (g, rest)
  | _ => none

/-- The glyph of an escape after its backslash and `u`. -/
def unicodeEscape? (dialect : Dialect) (t : Text) : Option (Glyph × Text) := do
  let (n, rest) ← hex4? t
  match partner? n rest with
  | some found => some found
  | none =>
    match ← Glyph.ofNat? n with
    | .surrogate u => if dialect.loneSurrogates then some (.surrogate u, rest) else none
    | g => some (g, rest)

/-- The glyph of an escape after its backslash. -/
def escape? (dialect : Dialect) : Text → Option (Glyph × Text)
  | .char 'u' :: rest => unicodeEscape? dialect rest
  | .char '"' :: rest => some (.char '"', rest)
  | .char '\\' :: rest => some (.char '\\', rest)
  | .char '/' :: rest => some (.char '/', rest)
  | .char 'b' :: rest => some (.char '\x08', rest)
  | .char 'f' :: rest => some (.char '\x0c', rest)
  | .char 'n' :: rest => some (.char '\n', rest)
  | .char 'r' :: rest => some (.char '\r', rest)
  | .char 't' :: rest => some (.char '\t', rest)
  | _ => none

/-- The rest of a string after its opening quote. The fuel bounds the glyphs read. -/
def string (dialect : Dialect) : Nat → Text → Text → Parsed Text
  | 0, _, _ => .error .malformed
  | _ + 1, _, [] => .error .malformed
  | fuel + 1, done, g :: rest =>
    if g = .char '"' then .ok (done.reverse, rest)
    else if g = .char '\\' then
      match escape? dialect rest with
      | some (g, rest) => string dialect fuel (g :: done) rest
      | none => .error .malformed
    else if g.codePoint < 0x20 then .error .malformed
    else string dialect fuel (g :: done) rest

/-- The digits after a point, if a point with a digit follows. -/
def fraction (t : Text) : List Nat × Text :=
  match t with
  | .char '.' :: rest =>
    match Decimal.takeDigits rest with
    | ([], _) => ([], t)
    | found => found
  | _ => ([], t)

/-- The exponent after its letter, if a digit follows the letter or its sign. -/
def exponent? (t : Text) : Option (Int × Text) :=
  let digits (negative : Bool) (t : Text) : Option (Int × Text) :=
    match Decimal.takeDigits t with
    | ([], _) => none
    | (ds, rest) =>
      let n : Int := Decimal.value ds
      some (if negative then -n else n, rest)
  match t with
  | .char c :: rest =>
    if c = 'e' ∨ c = 'E' then
      match rest with
      | .char '-' :: rest => digits true rest
      | .char '+' :: rest => digits false rest
      | rest => digits false rest
    else none
  | _ => none

/-- A number after its sign. -/
def number (negative : Bool) (t : Text) : Parsed Json :=
  match Decimal.takeDigits t with
  | ([], _) => .error .malformed
  | (whole, rest) =>
    -- a leading zero is a number of its own
    let (whole, rest) := if whole.head? = some 0 then ([0], t.drop 1) else (whole, rest)
    let (places, afterPoint) := fraction rest
    match exponent? afterPoint, places with
    | none, [] =>
      if Decimal.maxDigits < whole.length then .error (.integerTooLong whole.length)
      else
        let n : Int := Decimal.value whole
        .ok (.int (if negative then -n else n), rest)
    | found, _ =>
      let (e, rest) := found.getD (0, afterPoint)
      .ok (.float (.ofDecimal negative (Decimal.value (whole ++ places)) (e - places.length)), rest)

/-- What follows a word at the start of a text. -/
def afterWord? (word : Text) (t : Text) : Option Text :=
  if t.startsWith word then some (t.drop word.length) else none

/-- The words that are values. -/
def words : List (Text × Json) :=
  [("null", .null), ("true", .bool true), ("false", .bool false), ("NaN", .float .nan),
    ("Infinity", .float (.infinite false)), ("-Infinity", .float (.infinite true))]

/-- A value without parts: a word or a number. -/
def atom (t : Text) : Parsed Json :=
  match words.findSome? fun (word, value) => (afterWord? word t).map (value, ·) with
  | some found => .ok found
  | none =>
    match t with
    | .char '-' :: rest => number true rest
    | _ => number false t

mutual

/-- A value at the start of a text. The fuel bounds the glyphs, values and separators read;
`depth` is the nesting still allowed. -/
def value (dialect : Dialect) : Nat → Nat → Text → Parsed Json
  | 0, _, _ => .error .malformed
  | fuel + 1, depth, t =>
    match t with
    | .char '"' :: rest =>
      match string dialect fuel [] rest with
      | .ok (s, rest) => .ok (.text s, rest)
      | .error e => .error e
    | .char '[' :: rest =>
      let inside := skipSpace rest
      match inside with
      | .char ']' :: after =>
        if depth = 0 ∧ dialect.emptyCounts then .error .tooDeep else .ok (.array [], after)
      | _ =>
        match depth with
        | 0 => .error .tooDeep
        | depth + 1 => items dialect fuel depth [] inside
    | .char '\x7b' :: rest =>
      let inside := skipSpace rest
      match inside with
      | .char '\x7d' :: after =>
        if depth = 0 ∧ dialect.emptyCounts then .error .tooDeep else .ok (.object [], after)
      | _ =>
        match depth with
        | 0 => .error .tooDeep
        | depth + 1 => members dialect fuel depth [] inside
    | _ => atom t

/-- The items of an array from one item on. -/
def items (dialect : Dialect) : Nat → Nat → List Json → Text → Parsed Json
  | 0, _, _, _ => .error .malformed
  | fuel + 1, depth, done, t =>
    match value dialect fuel depth t with
    | .error e => .error e
    | .ok (item, rest) =>
      match skipSpace rest with
      | .char ',' :: rest => items dialect fuel depth (item :: done) (skipSpace rest)
      | .char ']' :: rest => .ok (.array (item :: done).reverse, rest)
      | _ => .error .malformed

/-- The members of an object from one key on. -/
def members (dialect : Dialect) : Nat → Nat → List (Text × Json) → Text → Parsed Json
  | 0, _, _, _ => .error .malformed
  | fuel + 1, depth, done, t =>
    match t with
    | .char '"' :: rest =>
      match string dialect fuel [] rest with
      | .error e => .error e
      | .ok (key, rest) =>
        match skipSpace rest with
        | .char ':' :: rest =>
          match value dialect fuel depth (skipSpace rest) with
          | .error e => .error e
          | .ok (item, rest) =>
            match skipSpace rest with
            | .char ',' :: rest => members dialect fuel depth ((key, item) :: done) (skipSpace rest)
            | .char '\x7d' :: rest =>
              .ok (dialect.object ((key, item) :: done).reverse, rest)
            | _ => .error .malformed
        | _ => .error .malformed
    | _ => .error .malformed

end

/-- The value of a whole text, with space around it. Nesting one level takes a glyph
and two calls, which bounds the fuel. -/
def read (dialect : Dialect) (t : Text) : Except ReadError Json :=
  match value dialect (2 * t.length + 2) dialect.depth (skipSpace t) with
  | .error e => .error e
  | .ok (v, rest) => if (skipSpace rest).isEmpty then .ok v else .error .malformed

end AuthorWatch.Json
