import AuthorWatch.Ledger.Retention
import AuthorWatch.Notice

/-! The state kept in memory: the nodes that joined, and the ledger within its window.
An event is applied completely before the next: it is counted, the ledger is swept, and
what falls out of the window is evicted. -/

namespace AuthorWatch

structure Tracker where
  registry : Registry
  ledger : Ledger
  policy : Policy
  window : Window
  deriving DecidableEq

/-- What a tracker is given: an event, or something else, which it passes over. -/
inductive Item where
  | event (e : Event)
  | foreign
  deriving DecidableEq

namespace Tracker

/-- A tracker over what was restored; a ledger larger than the window is cut first. -/
def ofRestored (registry : Registry) (ledger : Ledger) (policy : Policy) (window : Window) :
    Tracker :=
  ⟨registry, ledger.enforce window, policy, window⟩

/-- Counts an import, sweeps and evicts. The notices on the way do not stop it: the counts and ages
that they name are taken to have few enough digits to be written. -/
def importBlock (t : Tracker) (b : BlockImport) (now : Int) : Tracker × List Row :=
  let (ledger, rows) := t.ledger.handle t.registry t.policy b now
  ({ t with ledger := ledger.enforce t.window }, rows)

/-- The state after an item, and the rows that it brought. -/
def step (t : Tracker) (now : Int) : Item → Tracker × List Row
  | .event (.announce a) => ({ t with registry := t.registry.announce a }, [])
  | .event (.blockImport b) => t.importBlock b now
  | .foreign => (t, [])

/-- One notice about the records that a restored ledger loses. -/
def restoredNotices (ledger : Ledger) (window : Window) : List Notice :=
  let evicted := ledger.beyond window
  openNotices evicted
    ++ if evicted.isEmpty then [] else [.restoredRecordsDropped evicted.length window.size]
where
  /-- A notice about each record that is lost while open. -/
  openNotices (evicted : List (Text × Record)) : List Notice :=
    evicted.filterMap fun (hash, r) =>
      if r.finalized then none else some (.openRecordEvicted r.height hash)

/-- Notices about the counting of an accepted import and the sweep after it. -/
def countNotices (t : Tracker) (b : BlockImport) (now : Int) : List Notice :=
  let before := t.ledger.recordFor b now
  let reporter := Ledger.reporterFor t.registry b now
  let after := before.observe reporter b.propagation
  let counted := t.ledger.count t.registry b now
  let tallest := counted.tallest
  .importCounted b.height b.hash reporter.name b.propagation after.lowest after.count
      (before.affects b.ordinal b.propagation)
    :: (counted.due t.policy now).map fun (hash, r) =>
      .recordDue hash r.count (now - r.firstSeen) r.height tallest

/-- Notices about an import, in the order of the work. -/
def importNotices (t : Tracker) (b : BlockImport) (now : Int) : List Notice :=
  let counting := if Ledger.accepts b then t.countNotices b now else [.importRejected]
  let swept := (t.ledger.handle t.registry t.policy b now).1
  let evicted := swept.beyond t.window
  let kept := swept.enforce t.window
  counting ++ restoredNotices.openNotices evicted
    ++ (if evicted.isEmpty then [] else [.recordsEvicted evicted.length t.window.size])
    ++ [.tracking kept.size kept.openCount]

def notices (t : Tracker) (now : Int) : Item → List Notice
  | .event (.announce a) => [.nodeStored a.ordinal a.name a.nodeId]
  | .event (.blockImport b) => t.importNotices b now
  | .foreign => [.eventIgnored]

end Tracker

end AuthorWatch
