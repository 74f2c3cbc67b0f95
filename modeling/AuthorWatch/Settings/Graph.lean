import AuthorWatch.Settings.Merge
import AuthorWatch.Yaml.Value

/-! The mappings of a document by their labels. A mapping that stands at several places is one
cell, so what is laid over it at one of them shows at all of them. -/

namespace AuthorWatch

/-- What stands under a key: a plain value, or the mapping of a label. -/
inductive Ref where
  | plain (v : Json)
  | cell (label : Nat)

def Ref.ofValue : Yaml.Value → Ref
  | .plain v => .plain v
  | .mapping label _ => .cell label

structure Graph where
  cells : List (Nat × List (Text × Ref))

namespace Graph

/-- The members of a mapping. -/
def members (g : Graph) (label : Nat) : List (Text × Ref) := (Assoc.get? label g.cells).getD []

/-- Writes to a key of a mapping. -/
def write (g : Graph) (label : Nat) (key : Text) (r : Ref) : Graph :=
  ⟨Assoc.insert label (Assoc.insert key r (g.members label)) g.cells⟩

mutual

/-- Adds the mappings of a value. The first one of a label counts. -/
def add (g : Graph) : Yaml.Value → Graph
  | .plain _ => g
  | .mapping label members =>
    if (Assoc.get? label g.cells).isSome then g
    else addAll ⟨Assoc.insert label (members.map fun m => (m.1, .ofValue m.2)) g.cells⟩ members

def addAll (g : Graph) : List (Text × Yaml.Value) → Graph
  | [] => g
  | (_, v) :: rest => addAll (add g v) rest

end

mutual

/-- Lays members over a mapping, one after another. Mappings may be laid over each other to some
depth only. -/
def overlay (depth : Nat) (g : Graph) (label : Nat) : List (Text × Json) → Option Graph
  | [] => some g
  | (key, v) :: rest => (overlayAt depth g label key v).bind fun g => overlay depth g label rest

/-- Lays a value over what a mapping has under a key. -/
def overlayAt (depth : Nat) (g : Graph) (label : Nat) (key : Text) : Json → Option Graph
  | .object members =>
    match Assoc.get? key (g.members label), depth with
    | some (.cell _), 0 => none
    -- the key keeps its mapping, also if that was laid over itself meanwhile
    | some (.cell inner), depth + 1 =>
      (overlay depth g inner members).map fun g => g.write label key (.cell inner)
    | some (.plain (.object base)), depth =>
      if Json.descent base members < depth then
        some (g.write label key (.plain (.object (Json.overlay base members))))
      else none
    | _, _ => some (g.write label key (.plain (.object members)))
  | v => some (g.write label key (.plain v))

end

/-- What stands under a key, down to some depth: mappings further down show without members. -/
def unfold (g : Graph) : Nat → Ref → Json
  | _, .plain v => v
  | 0, .cell _ => .object []
  | depth + 1, .cell label => .object ((g.members label).map fun m => (m.1, unfold g depth m.2))

end Graph

end AuthorWatch
