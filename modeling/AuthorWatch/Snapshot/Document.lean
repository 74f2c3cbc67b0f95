import AuthorWatch.Ledger.Basic

/-! The registry and the ledger as JSON objects, keyed as they are in memory, and back
again from objects whose members are trusted. -/

namespace AuthorWatch

/-- Why an object gives no record. -/
inductive RestoreError where
  | absent (key : Text)
  /-- A reporter with a field too few or too many. -/
  | badReporter
  /-- A member of another kind than its field. -/
  | otherKind (key : Text)
  deriving DecidableEq

namespace Json

/-- A member that has to be there. -/
def need (key : Text) (members : List (Text × Json)) : Except RestoreError Json :=
  match member? key members with
  | some v => .ok v
  | none => .error (.absent key)

def asInt (key : Text) : Json → Except RestoreError Int
  | int n => .ok n
  | _ => .error (.otherKind key)

def asText (key : Text) : Json → Except RestoreError Text
  | text t => .ok t
  | _ => .error (.otherKind key)

def asFlag (key : Text) : Json → Except RestoreError Bool
  | bool b => .ok b
  | _ => .error (.otherKind key)

def asObject (key : Text) : Json → Except RestoreError (List (Text × Json))
  | object members => .ok members
  | _ => .error (.otherKind key)

def ofIntOption : Option Int → Json
  | some n => int n
  | none => null

end Json

namespace Node

def toJson (n : Node) : Json := .object [("name", .text n.name), ("node_id", .text n.nodeId)]

def restore (v : Json) : Except RestoreError Node := do
  let members ← v.asObject "node"
  let name ← (← Json.need "name" members).asText "name"
  let nodeId ← (← Json.need "node_id" members).asText "node_id"
  return ⟨name, nodeId⟩

end Node

namespace Reporter

def toJson (r : Reporter) : Json :=
  .object [("node_ordinal", .int r.ordinal), ("node_name", .text r.name),
    ("node_id", .text r.nodeId), ("timestamp", .int r.seen)]

/-- The fields of a reporter, which are all needed, and no others. -/
def fields : List Text := ["node_ordinal", "node_name", "node_id", "timestamp"]

def restore (v : Json) : Except RestoreError Reporter := do
  let members ← v.asObject "reporters"
  if members.any fun member => !fields.contains member.1 then .error .badReporter
  if fields.any fun key => (Json.member? key members).isNone then .error .badReporter
  let ordinal ← (← Json.need "node_ordinal" members).asInt "node_ordinal"
  let name ← (← Json.need "node_name" members).asText "node_name"
  let nodeId ← (← Json.need "node_id" members).asText "node_id"
  let seen ← (← Json.need "timestamp" members).asInt "timestamp"
  return ⟨ordinal, name, nodeId, seen⟩

end Reporter

namespace Record

def toJson (r : Record) : Json :=
  .object [("block_number", .int r.height), ("first_seen", .int r.firstSeen),
    ("lowest_propagation_time", Json.ofIntOption r.lowest),
    ("reporters", .array (r.reporters.map Reporter.toJson)),
    ("report_count", .int r.count), ("finalized", .bool r.finalized)]

/-- Reporters may be absent or null. -/
def restoreReporters : Option Json → Except RestoreError (List Reporter)
  | none | some .null => .ok []
  | some (.array items) => items.mapM Reporter.restore
  | some _ => .error (.otherKind "reporters")

def restore (v : Json) : Except RestoreError Record := do
  let members ← v.asObject "block"
  let height ← (← Json.need "block_number" members).asInt "block_number"
  let firstSeen ← (← Json.need "first_seen" members).asInt "first_seen"
  let lowest ← match Json.member? "lowest_propagation_time" members with
    | none | some .null => .ok none
    | some v => some <$> v.asInt "lowest_propagation_time"
  let reporters ← restoreReporters (Json.member? "reporters" members)
  let count ← ((Json.member? "report_count" members).getD (.int 0)).asInt "report_count"
  let finalized ← ((Json.member? "finalized" members).getD (.bool false)).asFlag "finalized"
  return ⟨height, firstSeen, lowest, reporters, count, finalized⟩

end Record

namespace Registry

def toJson (r : Registry) : Json := .object (r.entries.map fun (key, n) => (key, n.toJson))

def restore (members : List (Text × Json)) : Except RestoreError Registry :=
  OrderedMap.ofPairs <$> members.mapM fun (key, v) => (key, ·) <$> Node.restore v

end Registry

namespace Ledger

def toJson (l : Ledger) : Json := .object (l.entries.map fun (key, r) => (key, r.toJson))

def restore (members : List (Text × Json)) : Except RestoreError Ledger :=
  OrderedMap.ofPairs <$> members.mapM fun (key, v) => (key, ·) <$> Record.restore v

end Ledger

end AuthorWatch
