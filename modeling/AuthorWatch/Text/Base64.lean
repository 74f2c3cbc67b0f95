import AuthorWatch.Text.Basic

/-! Bytes written in base 64, four characters to three bytes. Characters outside the
alphabet mean nothing; equals signs fill the last group. -/

namespace AuthorWatch.Base64

def alphabet : List Char :=
  "ABCDEFGHIJKLMNOPQRSTUVWXYZabcdefghijklmnopqrstuvwxyz0123456789+/".toList

/-- The six bits of a character. -/
def sextet? (g : Glyph) : Option Nat := g.char?.bind fun c => alphabet.findIdx? (· = c)

/-- The whole bytes in two, three or four sextets; one alone has none. -/
def bytes : List Nat → List UInt8
  | [a, b] => [(a * 4 + b / 16).toUInt8]
  | [a, b, c] => [(a * 4 + b / 16).toUInt8, (b % 16 * 16 + c / 4).toUInt8]
  | [a, b, c, d] =>
    [(a * 4 + b / 16).toUInt8, (b % 16 * 16 + c / 4).toUInt8, (c % 4 * 64 + d).toUInt8]
  | _ => []

/-- Reads on inside a group. Equals signs that fill it end the text, whatever follows; a
character of the alphabet after too few of them takes them back. -/
def decodeFrom (group : List Nat) (fills : Nat) : Text → Option (List UInt8)
  | [] => if group.isEmpty then some [] else none
  | g :: rest =>
    if g = .char '=' then
      if group.length < 2 then decodeFrom group fills rest
      else if 4 ≤ group.length + fills + 1 then some (bytes group)
      else decodeFrom group (fills + 1) rest
    else
      match sextet? g with
      | none => decodeFrom group fills rest
      | some d =>
        if group.length = 3 then (decodeFrom [] 0 rest).map (bytes (group ++ [d]) ++ ·)
        else decodeFrom (group ++ [d]) 0 rest

/-- The bytes of a text of ASCII characters whose last group is full. -/
def decode? (t : Text) : Option (List UInt8) :=
  if t.all fun g => g.codePoint < 0x80 then decodeFrom [] 0 t else none

end AuthorWatch.Base64
