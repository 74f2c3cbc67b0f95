import AuthorWatch.Ledger.Record
import AuthorWatch.Number.Shortest

/-! Comma-separated values. A field that holds a comma, a quote or part of a line end is
quoted, and a quote in it is doubled. Every record ends with a carriage return and a
line feed. -/

namespace AuthorWatch

/-- One value of a record. -/
inductive Cell where
  | empty
  | flag (b : Bool)
  | integer (n : Int)
  | number (x : Binary64)
  | text (t : Text)

namespace Cell

def toText : Cell → Text
  | empty => []
  | flag b => if b then "True" else "False"
  | integer n => Decimal.ofInt n
  | number x => x.toText
  | text t => t

/-- An integer that is too long has no text. -/
def isShort : Cell → Bool
  | integer n => Decimal.isShort n
  | _ => true

end Cell

namespace Csv

def isSpecial (g : Glyph) : Bool :=
  g = .char ',' || g = .char '"' || g = .char '\r' || g = .char '\n'

def doubled (g : Glyph) : Text := if g = .char '"' then [g, g] else [g]

def quoted (t : Text) : Text := [.char '"'] ++ t.flatMap doubled ++ [.char '"']

def field (t : Text) : Text := if t.any isSpecial then quoted t else t

/-- The fields of a record. A record of one empty field is quoted, since a blank line
would have no field. -/
def fields : List Text → Text
  | [[]] => quoted []
  | texts => Text.join "," (texts.map field)

def record (texts : List Text) : Text := fields texts ++ "\r\n"

def ofCells (cells : List Cell) : Text := record (cells.map Cell.toText)

end Csv

namespace Row

/-- The names of a row's columns. -/
def columns : List Text :=
  ["timestamp", "node_name", "node_id", "block_number", "block_hash", "propagation_time"]

def cells (r : Row) : List Cell :=
  [.integer r.seen, .text r.name, .text r.nodeId, .integer r.height, .text r.hash,
    match r.propagation with
    | some time => .integer time
    | none => .empty]

end Row

end AuthorWatch
