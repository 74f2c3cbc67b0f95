/-! Text as a list of code points. A feed may carry a surrogate code unit without
its partner, which no `Char` can hold, so a position of a text is a glyph: a
character or such a lone unit. -/

namespace AuthorWatch

/-- A character, or a surrogate code unit that stands without its partner. -/
inductive Glyph where
  | char (c : Char)
  | surrogate (unit : Fin 2048)
  deriving DecidableEq, Inhabited

namespace Glyph

def codePoint : Glyph → Nat
  | char c => c.toNat
  | surrogate u => 0xD800 + u.val

/-- The glyph of a code point; numbers from `0x110000` on have none. -/
def ofNat? (n : Nat) : Option Glyph :=
  if h : 0xD800 ≤ n ∧ n < 0xE000 then some (surrogate ⟨n - 0xD800, by omega⟩)
  else if n.isValidChar then some (char (Char.ofNat n))
  else none

/-- Whether the glyph is a character in a class of characters. -/
def satisfies (g : Glyph) (p : Char → Bool) : Bool :=
  match g with
  | char c => p c
  | surrogate _ => false

def char? : Glyph → Option Char
  | char c => some c
  | surrogate _ => none

def isSurrogate : Glyph → Bool
  | char _ => false
  | surrogate _ => true

/-- The value of an ASCII decimal digit. -/
def digit? : Glyph → Option Nat
  | char c => if c.isDigit then some (c.toNat - 48) else none
  | surrogate _ => none

/-- The value of an ASCII hexadecimal digit. -/
def hexDigit? : Glyph → Option Nat
  | char c =>
    if c.isDigit then some (c.toNat - 48)
    else if 'a' ≤ c ∧ c ≤ 'f' then some (c.toNat - 87)
    else if 'A' ≤ c ∧ c ≤ 'F' then some (c.toNat - 55)
    else none
  | surrogate _ => none

end Glyph

abbrev Text := List Glyph

namespace Text

def ofString (s : String) : Text := s.toList.map Glyph.char

instance : Coe String Text := ⟨ofString⟩

/-- The string with these characters, if no surrogate stands alone. -/
def toString? : Text → Option String := fun t => (t.mapM Glyph.char?).map String.ofList

/-- Every glyph is a character, so the text has an encoding. -/
def encodable (t : Text) : Bool := t.all fun g => !g.isSurrogate

def startsWith (t lead : Text) : Bool := lead.isPrefixOf t

/-- A text in which a lone surrogate shows as three replacement characters, one for each byte
that it would take. -/
def withReplacements (t : Text) : Text :=
  t.flatMap fun g => if g.isSurrogate then List.replicate 3 (.char '\uFFFD') else [g]

/-- The text after a leading part, or the whole text when it does not lead. -/
def dropLeading (t lead : Text) : Text := if t.startsWith lead then t.drop lead.length else t

/-- Drops glyphs of a class at both ends. -/
def trim (p : Glyph → Bool) (t : Text) : Text :=
  ((t.dropWhile p).reverse.dropWhile p).reverse

/-- Puts a glyph in front of the first piece. -/
def ontoFirst (g : Glyph) : List Text → List Text
  | [] => [[g]]
  | piece :: pieces => (g :: piece) :: pieces

/-- The pieces between the occurrences of a glyph. -/
def splitOn (sep : Glyph) : Text → List Text
  | [] => [[]]
  | g :: rest => if g = sep then [] :: splitOn sep rest else ontoFirst g (splitOn sep rest)

/-- The pieces between the doubled occurrences of a glyph, found from the left. -/
def splitOnDouble (sep : Glyph) : Text → List Text
  | [] => [[]]
  | [g] => [[g]]
  | g :: h :: rest =>
    if g = sep ∧ h = sep then [] :: splitOnDouble sep rest
    else ontoFirst g (splitOnDouble sep (h :: rest))

/-- Every line end as a line feed: a carriage return is one, alone or with a line feed after it. -/
def withPlainLineEnds : Text → Text
  | [] => []
  | .char '\r' :: .char '\n' :: rest => .char '\n' :: withPlainLineEnds rest
  | g :: rest => (if g = .char '\r' then .char '\n' else g) :: withPlainLineEnds rest

def join (sep : Text) (parts : List Text) : Text := List.intercalate sep parts

end Text

end AuthorWatch
