import AuthorWatch.Files.Tree
import AuthorWatch.Json.Reader
import AuthorWatch.Json.Writer
import AuthorWatch.Output
import AuthorWatch.Snapshot.Document
import AuthorWatch.Text.Blank

/-! The two snapshot files. A save writes the whole document to a file beside the
snapshot and then moves it over the snapshot, so a reader only ever finds a complete
document. A snapshot that is missing or does not hold what it should loads as nothing. -/

namespace AuthorWatch

namespace Node

def ofJson : Json → Check Node :=
  .object fun members =>
    Node.mk <$> .required .text "name" members <*> .required .text "node_id" members

end Node

namespace Reporter

def ofJson : Json → Check Reporter :=
  .object fun members =>
    Reporter.mk
      <$> .required (.integerAtLeast 0) "node_ordinal" members
      <*> .required .text "node_name" members
      <*> .required .text "node_id" members
      <*> .required .integer "timestamp" members

end Reporter

namespace Record

def reportersOfJson : Json → Check (List Reporter)
  | .array items => .each Reporter.ofJson items
  | _ => .failed [⟨[], .notArray⟩]

def ofJson : Json → Check Record :=
  .object fun members =>
    Record.mk
      <$> .required (.integerAtLeast 0) "block_number" members
      <*> .required .integer "first_seen" members
      <*> .optional none (fun v => .ofExcept (v.orNull Json.toInteger)) "lowest_propagation_time"
        members
      <*> .optional [] reportersOfJson "reporters" members
      <*> .optional 0 (.integerAtLeast 0) "report_count" members
      <*> .optional false (fun v => .ofExcept v.toFlag) "finalized" members

end Record

namespace Snapshot

/-- The entries of a document; one that does not pass fails them all. -/
def entries {α : Type} (read : Json → Check α) : Json → Check (OrderedMap α)
  | .object members =>
    OrderedMap.ofPairs <$> .each (fun (key, v) => (key, ·) <$> read v) members
  | _ => .failed [⟨[], .notObject⟩]

/-- The entries of a file's text. Blank text holds none. -/
def ofText {α : Type} (read : Json → Check α) (t : Text) : Option (OrderedMap α) :=
  if t.isBlank then some .empty
  else
    match Json.read .document t with
    | .error _ => none
    | .ok document =>
      match entries read document with
      | .passed map => some map
      | .failed _ => none

/-- The entries of a file's bytes, whatever its line ends are. -/
def ofBytes {α : Type} (read : Json → Check α) (bytes : List UInt8) : Option (OrderedMap α) :=
  (Utf8.decode? bytes).bind fun t => ofText read t.withPlainLineEnds

/-- The entries of a snapshot file, if it holds what it should, or why there are none. -/
def find {α : Type} (read : Json → Check α) (kind : SnapshotKind) (files : FileTree) (path : Path) :
    Except Notice (OrderedMap α) :=
  match files.read path with
  | .error .absent => .error (.snapshotMissing kind path.toText)
  | .error _ => .error (.snapshotUnreadable kind)
  | .ok bytes =>
    match ofBytes read bytes with
    | some map => .ok map
    | none => .error (.snapshotUnreadable kind)

/-- The entries of a snapshot file, and what is to be said about them. -/
def load {α : Type} (read : Json → Check α) (kind : SnapshotKind) (files : FileTree) (path : Path) :
    OrderedMap α × List Notice :=
  let loaded (map : OrderedMap α) : Notice := .snapshotLoaded kind map.size path.toText
  match find read kind files path with
  | .ok map => (map, [loaded map])
  | .error notice => (.empty, [notice, loaded .empty])

def loadRegistry : FileTree → Path → Registry × List Notice := load Node.ofJson .nodes

def loadLedger : FileTree → Path → Ledger × List Notice := load Record.ofJson .blocks

/-- The files after a save, and whether the snapshot holds the new document. -/
structure Saved where
  files : FileTree
  done : Bool

/-- Writes the pieces of a document to a draft, up to the first that cannot be written. A
complete draft is moved over the snapshot. -/
def writeDraft (files : FileTree) (draft path : Path) (pieces : List Json.Piece) : Saved :=
  match files.makeDirectory path.parent with
  | (files, .error _) => ⟨files, false⟩
  | (files, .ok ()) =>
    let part := (pieces.takeWhile Json.Piece.isWritable).flatMap Json.Piece.toText
    match files.write draft (Utf8.encode part) with
    | .error _ => ⟨files, false⟩
    | .ok files =>
      if pieces.all Json.Piece.isWritable then
        match files.replace draft path with
        | .error _ => ⟨files, false⟩
        | .ok files => ⟨files, true⟩
      else ⟨files, false⟩

/-- The ending of a draft's name. -/
def draftEnding : Text := ".tmp"

def save (files : FileTree) (path : Path) (document : Json) : Except Failure Saved :=
  match path.sibling? draftEnding with
  | none => .error (.nameless path)
  | some draft => .ok (writeDraft files draft path document.pieces)

end Snapshot

end AuthorWatch
