import AuthorWatch.Json.Basic
import AuthorWatch.Number.Decimal
import AuthorWatch.Number.Shortest
import AuthorWatch.Text.Quoted

/-! Writing JSON without spaces. A text keeps all characters but quotes, backslashes and
control characters. -/

namespace AuthorWatch.Json

/-- A glyph inside quotes. -/
def escaped (g : Glyph) : Text :=
  match g with
  | .char '"' => "\\\""
  | .char '\\' => "\\\\"
  | .char '\n' => "\\n"
  | .char '\r' => "\\r"
  | .char '\t' => "\\t"
  | .char '\x08' => "\\b"
  | .char '\x0c' => "\\f"
  | g =>
    let n := g.codePoint
    if n < 0x20 then "\\u" ++ Text.hexDigits 4 n else [g]

def quoted (t : Text) : Text := [.char '"'] ++ t.flatMap escaped ++ [.char '"']

/-- A piece of a written value. Every text and every integer is a piece of its own. -/
inductive Piece where
  | text (t : Text)
  | integer (n : Int)

namespace Piece

def toText : Piece → Text
  | text t => t
  | integer n => Decimal.ofInt n

/-- A text is written if it has an encoding, and an integer if it is short enough. -/
def isWritable : Piece → Bool
  | text t => t.encodable
  | integer n => Decimal.isShort n

end Piece

/-- A mark between the parts of a value. -/
def mark (c : Char) : Piece := .text [.char c]

mutual

/-- The pieces in which a value is written. -/
def pieces : Json → List Piece
  | null => [.text "null"]
  | bool true => [.text "true"]
  | bool false => [.text "false"]
  | int n => [.integer n]
  | float x => [.text x.toText]
  | text t => [.text (quoted t)]
  | array [] => [.text "[]"]
  | array (item :: rest) => mark '[' :: pieces item ++ itemPieces rest
  | object [] => [.text "\x7b\x7d"]
  | object ((key, item) :: rest) =>
    mark '\x7b' :: .text (quoted key) :: mark ':' :: pieces item ++ memberPieces rest

def itemPieces : List Json → List Piece
  | [] => [.text "]"]
  | item :: rest => mark ',' :: pieces item ++ itemPieces rest

def memberPieces : List (Text × Json) → List Piece
  | [] => [.text "\x7d"]
  | (key, item) :: rest =>
    mark ',' :: .text (quoted key) :: mark ':' :: pieces item ++ memberPieces rest

end

def write (v : Json) : Text := v.pieces.flatMap Piece.toText

/-- Whether all of a value can be written. -/
def isWritable (v : Json) : Bool := v.pieces.all Piece.isWritable

end AuthorWatch.Json
