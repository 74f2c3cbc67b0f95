import AuthorWatch.Text.Shown

/-! A text in quotes, as messages show it. The quotes are single unless only the text
has those; characters without a picture are written as escapes. -/

namespace AuthorWatch.Text

/-- The lower-case hexadecimal digits of a number, of a fixed count. -/
def hexDigits (count n : Nat) : Text :=
  match count with
  | 0 => []
  | count + 1 =>
    hexDigits count (n / 16) ++ [.char ("0123456789abcdef".toList.getD (n % 16) '0')]

/-- A glyph between quotes of a kind. -/
def shown (quote g : Glyph) : Text :=
  let n := g.codePoint
  if g = quote ∨ g = .char '\\' then [.char '\\', g]
  else if g = .char '\n' then "\\n"
  else if g = .char '\r' then "\\r"
  else if g = .char '\t' then "\\t"
  else if g.isShown then [g]
  else if n < 0x100 then "\\x" ++ hexDigits 2 n
  else if n < 0x10000 then "\\u" ++ hexDigits 4 n
  else "\\U" ++ hexDigits 8 n

def quoted (t : Text) : Text :=
  let quote : Glyph := .char (if .char '\x27' ∈ t ∧ .char '"' ∉ t then '"' else '\x27')
  [quote] ++ t.flatMap (shown quote) ++ [quote]

end AuthorWatch.Text
