import AuthorWatch.Text.Basic

/-! The record of one block: how many imports were reported, the lowest propagation
time among them, and the nodes tied at that time, which are its likely authors. -/

namespace AuthorWatch

/-- A node as it was named when its report came in. -/
structure Reporter where
  ordinal : Int
  name : Text
  nodeId : Text
  /-- When the report was processed, in seconds. -/
  seen : Int
  deriving DecidableEq

structure Record where
  height : Int
  firstSeen : Int
  /-- Nothing has been observed yet if there is no lowest time. -/
  lowest : Option Int
  reporters : List Reporter
  count : Int
  finalized : Bool
  deriving DecidableEq

/-- One likely author of a block. -/
structure Row where
  seen : Int
  name : Text
  nodeId : Text
  height : Int
  hash : Text
  propagation : Option Int
  deriving DecidableEq

namespace Record

/-- A block that no report has been counted for. -/
def fresh (height firstSeen : Int) : Record := ⟨height, firstSeen, none, [], 0, false⟩

/-- A time below every time observed. -/
def lowers (r : Record) (time : Int) : Bool :=
  match r.lowest with
  | none => true
  | some low => time < low

/-- A node not yet listed reports the lowest time. -/
def joins (r : Record) (ordinal time : Int) : Bool :=
  r.lowest = some time && r.reporters.all (·.ordinal ≠ ordinal)

/-- Whether a report changes the reporters. -/
def affects (r : Record) (ordinal time : Int) : Bool := r.lowers time || r.joins ordinal time

/-- Counts a report. A new lowest time starts the reporters anew; at the lowest time a
node is listed once. -/
def observe (r : Record) (reporter : Reporter) (time : Int) : Record :=
  if r.lowers time then
    { r with count := r.count + 1, lowest := some time, reporters := [reporter] }
  else if r.joins reporter.ordinal time then
    { r with count := r.count + 1, reporters := r.reporters ++ [reporter] }
  else { r with count := r.count + 1 }

/-- One row for each reporter. -/
def rows (r : Record) (hash : Text) : List Row :=
  r.reporters.map fun reporter =>
    ⟨reporter.seen, reporter.name, reporter.nodeId, r.height, hash, r.lowest⟩

def close (r : Record) : Record := { r with finalized := true }

end Record

end AuthorWatch
