import AuthorWatch.Event
import AuthorWatch.OrderedMap

/-! The nodes that joined a feed, by ordinal. A node that joins again replaces the
one under its ordinal and keeps its place; none is ever removed. -/

namespace AuthorWatch

structure Node where
  name : Text
  nodeId : Text
  deriving DecidableEq

/-- Nodes under the text of their ordinal. -/
abbrev Registry := OrderedMap Node

namespace Registry

/-- The key of an ordinal. -/
def keyOf (ordinal : Int) : Text := Decimal.ofInt ordinal

/-- Stands in for a node that has not joined. -/
def unknownNode (key : Text) : Node := ⟨"unknown_node_" ++ key, "unknown_id"⟩

/-- The node under a key, or one that stands in for it. -/
def resolve (r : Registry) (key : Text) : Node := (r.get? key).getD (unknownNode key)

def announce (r : Registry) (a : Announce) : Registry :=
  r.insert (keyOf a.ordinal) ⟨a.name, a.nodeId⟩

end Registry

end AuthorWatch
