import AuthorWatch.Ledger.Basic

/-! The retention window keeps the highest blocks. Among equal heights the earlier
entry ranks first. An evicted record is lost, finalized or not. -/

namespace AuthorWatch

/-- How many records a ledger keeps. -/
structure Window where
  size : Nat
  pos : 0 < size
  deriving DecidableEq

namespace Window

def ofInt? (n : Int) : Option Window :=
  if h : 0 < n then some ⟨n.toNat, by omega⟩ else none

/-- A hundred records. -/
def standard : Window := ⟨100, by decide⟩

instance : Inhabited Window := ⟨standard⟩

end Window

namespace Ledger

/-- Puts an entry before all entries that are not higher. -/
def rankInto (entry : Text × Record) : List (Text × Record) → List (Text × Record)
  | [] => [entry]
  | other :: rest =>
    if other.2.height ≤ entry.2.height then entry :: other :: rest
    else other :: rankInto entry rest

/-- The entries from the highest to the lowest, equal heights in their order. -/
def ranked (l : Ledger) : List (Text × Record) := l.entries.foldr rankInto []

/-- The entries below the window, from the highest to the lowest. -/
def beyond (l : Ledger) (window : Window) : List (Text × Record) := l.ranked.drop window.size

/-- Evicts the entries below the window. -/
def enforce (l : Ledger) (window : Window) : Ledger :=
  let evicted := Assoc.keys (l.beyond window)
  l.filterKeys fun key => key ∉ evicted

end Ledger

end AuthorWatch
