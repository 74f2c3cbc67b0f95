import AuthorWatch.Output
import AuthorWatch.Snapshot.Store
import AuthorWatch.Tracker

/-! A tracker with its files. After an announcement the registry is saved. When a block
was imported, the rows are added to the output, and then both snapshots are saved. Either of
output and snapshots may be left out. -/

namespace AuthorWatch

/-- Where the snapshots are kept. -/
structure Store where
  nodes : Path
  blocks : Path
  deriving DecidableEq

/-- Where the state and the rows are kept, if they are. -/
structure Storage where
  store : Option Store
  output : Option Output
  deriving DecidableEq

structure Recorder where
  tracker : Tracker
  storage : Storage

namespace Recorder

/-- The outcome of an event: its rows, unless its handling ended early. -/
structure Outcome where
  recorder : Recorder
  files : FileTree
  rows : Except Failure (List Row)
  notices : List Notice

/-- Saves a snapshot; a failure to write it is only noted. -/
def saveSnapshot (kind : SnapshotKind) (files : FileTree) (path : Path) (document : Json) :
    FileTree × Except Failure Unit × List Notice :=
  match Snapshot.save files path document with
  | .error f => (files, .error f, [])
  | .ok saved => (saved.files, .ok (), if saved.done then [] else [.snapshotNotSaved kind])

/-- Saves the registry, and after an import the ledger too. -/
def saveAll (t : Tracker) (s : Store) (files : FileTree) (withLedger : Bool) :
    FileTree × Except Failure Unit × List Notice :=
  let (files, nodesDone, nodesNotices) := saveSnapshot .nodes files s.nodes t.registry.toJson
  match nodesDone, withLedger with
  | .ok (), true =>
    let (files, done, notices) := saveSnapshot .blocks files s.blocks t.ledger.toJson
    (files, done, nodesNotices ++ notices)
  | done, _ => (files, done, nodesNotices)

/-- Saves what is kept in snapshots, if there are any. -/
def keep (t : Tracker) (store : Option Store) (files : FileTree) (withLedger : Bool) :
    FileTree × Except Failure Unit × List Notice :=
  match store with
  | some s => saveAll t s files withLedger
  | none => (files, .ok (), [])

/-- What adding the rows of an import comes to. -/
structure Added where
  output : Option Output
  files : FileTree
  done : Except Failure Unit
  notices : List Notice

/-- Adds rows to the output, if there is one. -/
def addRows (output : Option Output) (files : FileTree) (rows : List Row) : Added :=
  match output with
  | some o =>
    let w := o.write files (rows.map Row.cells)
    ⟨some w.output, w.files, w.added.map fun _ => (), w.notices⟩
  | none => ⟨none, files, .ok (), []⟩

/-- Adds the rows of an import to the output and saves both snapshots. -/
def record (t : Tracker) (s : Storage) (files : FileTree) (rows : List Row) :
    Storage × FileTree × Except Failure Unit × List Notice :=
  let added := addRows s.output files rows
  let s := { s with output := added.output }
  match added.done with
  | .error f => (s, added.files, .error f, added.notices)
  | .ok () =>
    let (files, done, notices) := keep t s.store added.files true
    (s, files, done, added.notices ++ notices)

def process (r : Recorder) (files : FileTree) (item : Item) (now : Int) : Outcome :=
  let (tracker, rows) := r.tracker.step now item
  let notices := r.tracker.notices now item
  match item with
  | .event (.announce _) =>
    let (files, done, more) := keep tracker r.storage.store files false
    ⟨⟨tracker, r.storage⟩, files, done.map fun _ => rows, notices ++ more⟩
  | .event (.blockImport _) =>
    let (s, files, done, more) := record tracker r.storage files rows
    ⟨⟨tracker, s⟩, files, done.map fun _ => rows, notices ++ more⟩
  | .foreign => ⟨⟨tracker, r.storage⟩, files, .ok rows, notices⟩

/-- Where a recorder keeps its files, and how it works. -/
structure Plan where
  nodes : Path
  blocks : Path
  output : Path
  policy : Policy
  window : Window

/-- A recorder made ready, unless its output file cannot be used. -/
structure Opened where
  files : FileTree
  recorder : Except Output.Unusable Recorder
  notices : List Notice

/-- Restores what the snapshots hold and opens the output file. -/
def «open» (plan : Plan) (files : FileTree) : Opened :=
  let (registry, nodesNotices) := Snapshot.loadRegistry files plan.nodes
  let (ledger, blocksNotices) := Snapshot.loadLedger files plan.blocks
  let (files, output) := Output.prepare files plan.output Row.columns
  let notices := nodesNotices ++ blocksNotices ++ [.outputOpened plan.output.toText]
  match output with
  | .error e => ⟨files, .error e, notices⟩
  | .ok output =>
    ⟨files, .ok ⟨.ofRestored registry ledger plan.policy plan.window,
        ⟨some ⟨plan.nodes, plan.blocks⟩, some output⟩⟩,
      notices ++ Tracker.restoredNotices ledger plan.window⟩

end Recorder

end AuthorWatch
