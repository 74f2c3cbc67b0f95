import AuthorWatch.Check.Scalar

/-! Events of a feed: a node joins it under an ordinal, or a node reports that it
imported a block. Ordinals, heights and times of checked events are not negative. -/

namespace AuthorWatch

/-- A node joined the feed. Its ordinal holds for one session. -/
structure Announce where
  ordinal : Int
  name : Text
  nodeId : Text
  deriving DecidableEq

/-- A node imported a block. A propagation time of zero means that the feed does not know it. -/
structure BlockImport where
  ordinal : Int
  height : Int
  hash : Text
  propagation : Int
  deriving DecidableEq

inductive Event where
  | announce (a : Announce)
  | blockImport (b : BlockImport)
  deriving DecidableEq

namespace Event

/-- The word for an event that a node joined. -/
def announceKind : Text := "nodeAnnounce"

/-- The word for an event that a block was imported. -/
def importKind : Text := "blockImport"

def kind : Event → Text
  | announce _ => announceKind
  | blockImport _ => importKind

/-- An object may name its kind, and then has to name this one. -/
def kindIs (word : Text) : Json → Check Unit
  | .text t => if t = word then .passed () else .failed [⟨[], .otherKind⟩]
  | _ => .failed [⟨[], .otherKind⟩]

end Event

namespace Check

/-- A check of an object's members. -/
def object {α : Type} (read : List (Text × Json) → Check α) : Json → Check α
  | .object members => read members
  | _ => .failed [⟨[], .notObject⟩]

end Check

namespace Announce

def check (members : List (Text × Json)) : Check Announce :=
  Announce.mk
    <$> .required (.integerAtLeast 0) "ordinal" members
    <*> .required .text "name" members
    <*> .required .text "node_id" members

/-- An event that a node joined, as a described object. -/
def ofJson : Json → Check Announce :=
  .object fun members =>
    (fun _ a => a)
      <$> .optional () (Event.kindIs Event.announceKind) "event_type" members
      <*> check members

end Announce

namespace BlockImport

def check (members : List (Text × Json)) : Check BlockImport :=
  BlockImport.mk
    <$> .required (.integerAtLeast 0) "node_ordinal" members
    <*> .required (.integerAtLeast 0) "block_number" members
    <*> .required .text "block_hash" members
    <*> .optional 0 (.integerAtLeast 0) "propagation_time" members

/-- An event that a block was imported, as a described object. -/
def ofJson : Json → Check BlockImport :=
  .object fun members =>
    (fun _ b => b)
      <$> .optional () (Event.kindIs Event.importKind) "event_type" members
      <*> check members

end BlockImport

end AuthorWatch
