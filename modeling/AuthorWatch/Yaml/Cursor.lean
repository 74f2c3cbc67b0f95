import AuthorWatch.Text.Basic

/-! A place in a document: what is still to come, how far it is from the start, and its
line and column. Line ends are line feeds, next-line characters, and the line and
paragraph separators. -/

namespace AuthorWatch.Yaml

def isBreak (g : Glyph) : Bool :=
  g = .char '\n' || g = .char '\u0085' || g = .char '\u2028' || g = .char '\u2029'

def isGap (g : Glyph) : Bool := g = .char ' ' || g = .char '\t'

def isGapOrBreak (g : Glyph) : Bool := isGap g || isBreak g

/-- The end of the text, or a glyph of a class. -/
def endsAt (p : Glyph → Bool) : Option Glyph → Bool
  | none => true
  | some g => p g

/-- Whether a glyph is among those of a string. -/
def among (marks : String) (g : Glyph) : Bool := g.satisfies marks.toList.contains

structure Cursor where
  rest : Text
  index : Nat
  line : Nat
  column : Nat

namespace Cursor

def ofText (t : Text) : Cursor := ⟨t, 0, 0, 0⟩

def peek? (c : Cursor) : Option Glyph := c.rest.head?

/-- The glyph after some others. -/
def peekAt? (c : Cursor) (n : Nat) : Option Glyph := c.rest[n]?

def isAt (c : Cursor) (ch : Char) : Bool := c.peek? = some (.char ch)

/-- One glyph on. A byte order mark takes no column. -/
def next (c : Cursor) : Cursor :=
  match c.rest with
  | [] => c
  | g :: rest =>
    if isBreak g then ⟨rest, c.index + 1, c.line + 1, 0⟩
    else ⟨rest, c.index + 1, c.line, if g = .char '\uFEFF' then c.column else c.column + 1⟩

def advance (c : Cursor) : Nat → Cursor
  | 0 => c
  | n + 1 => c.next.advance n

/-- The leading glyphs of a class, and the cursor after them. -/
def takeWhile (c : Cursor) (p : Glyph → Bool) : Text × Cursor :=
  let taken := c.rest.takeWhile p
  (taken, c.advance taken.length)

def skipWhile (c : Cursor) (p : Glyph → Bool) : Cursor := (c.takeWhile p).2

def skipSpaces (c : Cursor) : Cursor := c.skipWhile (· = .char ' ')

/-- A comment up to the end of its line, if one stands here. -/
def skipComment (c : Cursor) : Cursor :=
  if c.isAt '#' then c.skipWhile fun g => !isBreak g else c

/-- A line end: what it counts as in a scalar, and the cursor after it. -/
def lineBreak? (c : Cursor) : Option (Glyph × Cursor) :=
  match c.peek? with
  | some g =>
    if isBreak g then
      some (if g = .char '\n' ∨ g = .char '\u0085' then .char '\n' else g, c.next)
    else none
  | none => none

/-- Whether a word stands here that is followed by a gap, a line end or nothing. -/
def standsAlone (c : Cursor) (word : Text) : Bool :=
  c.rest.startsWith word && endsAt isGapOrBreak (c.peekAt? word.length)

/-- Whether a mark that separates documents stands here. -/
def atSeparator (c : Cursor) : Bool := c.standsAlone "---" || c.standsAlone "..."

/-- The rest of a line that may only hold spaces and a comment. -/
def restOfLine? (c : Cursor) : Option Cursor :=
  let c := c.skipSpaces.skipComment
  match c.lineBreak? with
  | some (_, c) => some c
  | none => if c.rest.isEmpty then some c else none

end Cursor

end AuthorWatch.Yaml
