import AuthorWatch.Ledger.Policy
import AuthorWatch.Registry

/-! The ledger holds a record for each block hash, in the order in which the hashes
came. Every accepted import is followed by a sweep, which finalizes all records that
are due and gives their rows. -/

namespace AuthorWatch

abbrev Ledger := OrderedMap Record

namespace Ledger

/-- The greatest height of a record, or zero if there is none. -/
def tallest (l : Ledger) : Int := ((l.entries.map fun entry => entry.2.height).max?).getD 0

/-- The number of records that are not finalized. -/
def openCount (l : Ledger) : Nat := (l.entries.filter fun entry => !entry.2.finalized).length

/-- The entries that are due, in order. -/
def due (l : Ledger) (policy : Policy) (now : Int) : List (Text × Record) :=
  let tallest := l.tallest
  l.entries.filter fun entry => policy.due now tallest entry.2

/-- Closes what is due. -/
def sweep (l : Ledger) (policy : Policy) (now : Int) : Ledger :=
  let tallest := l.tallest
  l.mapValues fun _ r => if policy.due now tallest r then r.close else r

/-- The rows of what a sweep closes. -/
def sweepRows (l : Ledger) (policy : Policy) (now : Int) : List Row :=
  (l.due policy now).flatMap fun (hash, r) => r.rows hash

/-- An import counts if it names a block and knows its propagation time. -/
def accepts (b : BlockImport) : Bool := !b.hash.isEmpty && b.propagation != 0

/-- The record of an imported block before the import is counted. -/
def recordFor (l : Ledger) (b : BlockImport) (now : Int) : Record :=
  (l.get? b.hash).getD (.fresh b.height now)

/-- The reporter of an import, named as the registry knows it. -/
def reporterFor (registry : Registry) (b : BlockImport) (now : Int) : Reporter :=
  let node := registry.resolve (Registry.keyOf b.ordinal)
  ⟨b.ordinal, node.name, node.nodeId, now⟩

/-- Counts an accepted import. -/
def count (l : Ledger) (registry : Registry) (b : BlockImport) (now : Int) : Ledger :=
  l.insert b.hash ((l.recordFor b now).observe (reporterFor registry b now) b.propagation)

/-- Counts an import and sweeps; an import that is not accepted does neither. -/
def handle (l : Ledger) (registry : Registry) (policy : Policy) (b : BlockImport) (now : Int) :
    Ledger × List Row :=
  if accepts b then
    let counted := l.count registry b now
    (counted.sweep policy now, counted.sweepRows policy now)
  else (l, [])

end Ledger

end AuthorWatch
