import AuthorWatch.Csv
import AuthorWatch.Files.Tree
import AuthorWatch.Notice
import AuthorWatch.Text.Utf8

/-! The output file of likely authors. Its header is written once, when the file is
missing or empty; rows are only ever added. A failure to open the file loses the rows
and is no more than noted. -/

namespace AuthorWatch

/-- What ends the handling of an event. -/
inductive Failure where
  /-- A text holds a surrogate without its partner, so it has no encoding. -/
  | unencodable
  /-- An integer has too many digits to be written. -/
  | tooLong
  /-- A path names no file. -/
  | nameless (path : Path)
  deriving DecidableEq

structure Output where
  path : Path
  columns : List Text
  /-- Rows added since the file was opened. -/
  written : Nat
  deriving DecidableEq

namespace Output

/-- Why an output file cannot be used. -/
inductive Unusable where
  | files
  | failure (f : Failure)
  deriving DecidableEq

/-- Why a row cannot be written. Its integers are looked at before its texts. -/
def fault? (row : List Cell) : Option Failure :=
  if !row.all Cell.isShort then some .tooLong
  else if (Csv.ofCells row).encodable then none
  else some .unencodable

/-- The rows before the first that cannot be written. -/
def sound (rows : List (List Cell)) : List (List Cell) :=
  rows.takeWhile fun row => (fault? row).isNone

/-- What rows are in a file. -/
def bytes (rows : List (List Cell)) : List UInt8 := Utf8.encode (rows.map Csv.ofCells).flatten

/-- Adds rows to a file; those before one that cannot be written are still added. -/
def add (files : FileTree) (path : Path) (rows : List (List Cell)) : Except FileError FileTree :=
  files.append path (bytes (sound rows))

/-- Whether a file is there and not empty. -/
def hasContent (files : FileTree) (path : Path) : Bool :=
  match files.lookup? path with
  | some (.file content) => !content.isEmpty
  | some .directory => true
  | none => false

/-- Makes the file ready: its directory, and the header if it has no content. -/
def prepare (files : FileTree) (path : Path) (columns : List Text) :
    FileTree × Except Unusable Output :=
  match files.makeDirectory path.parent with
  | (files, .error _) => (files, .error .files)
  | (files, .ok ()) =>
    let header := if hasContent files path then [] else [columns.map Cell.text]
    match add files path header with
    | .error _ => (files, .error .files)
    | .ok files =>
      (files, match header.findSome? fault? with
        | none => .ok ⟨path, columns, 0⟩
        | some f => .error (.failure f))

/-- The outcome of adding rows: how many were added, unless one could not be written. -/
structure Written where
  files : FileTree
  output : Output
  added : Except Failure Nat
  notices : List Notice

def write (o : Output) (files : FileTree) (rows : List (List Cell)) : Written :=
  if rows.isEmpty then ⟨files, o, .ok 0, []⟩
  else
    let count := rows.length
    match add files o.path rows with
    | .error _ => ⟨files, o, .ok 0, [.outputWritten count, .outputNotWritten count]⟩
    | .ok files =>
      match rows.findSome? fault? with
      | none => ⟨files, { o with written := o.written + count }, .ok count, [.outputWritten count]⟩
      | some f => ⟨files, o, .error f, [.outputWritten count]⟩

end Output

end AuthorWatch
