import AuthorWatch.Text.Basic

/-! Blank characters: those with the Unicode property White_Space, and the four
information separators. -/

namespace AuthorWatch

namespace Glyph

/-- First and last code point of each run of blank characters. -/
def blankRuns : List (Nat × Nat) :=
  [(0x09, 0x0D), (0x1C, 0x20), (0x85, 0x85), (0xA0, 0xA0), (0x1680, 0x1680), (0x2000, 0x200A),
    (0x2028, 0x2029), (0x202F, 0x202F), (0x205F, 0x205F), (0x3000, 0x3000)]

def isBlank (g : Glyph) : Bool :=
  blankRuns.any fun (lo, hi) => lo ≤ g.codePoint ∧ g.codePoint ≤ hi

end Glyph

namespace Text

/-- Drops blank characters at both ends. -/
def strip (t : Text) : Text := t.trim Glyph.isBlank

def isBlank (t : Text) : Bool := t.all Glyph.isBlank

end Text

end AuthorWatch
