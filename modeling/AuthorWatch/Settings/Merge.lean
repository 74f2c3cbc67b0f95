import AuthorWatch.Json.Basic

/-! Laying one object over another. Where both have an object under a key, these are laid
over each other; anything else that the upper one has replaces what is below. -/

namespace AuthorWatch.Json

mutual

/-- Lays members over an object, one after another. -/
def overlay (base : List (Text × Json)) : List (Text × Json) → List (Text × Json)
  | [] => base
  | (key, v) :: rest => overlay (Assoc.insert key (overlayValue (Assoc.get? key base) v) base) rest

/-- A value laid over what may be below it. -/
def overlayValue (below : Option Json) : Json → Json
  | object members =>
    match below with
    | some (object base) => object (overlay base members)
    | _ => object members
  | v => v

end

mutual

/-- How far down objects lie over each other when members are laid over an object. -/
def descent (base : List (Text × Json)) : List (Text × Json) → Nat
  | [] => 0
  | (key, v) :: rest => max (descentValue (Assoc.get? key base) v) (descent base rest)

def descentValue (below : Option Json) : Json → Nat
  | object members =>
    match below with
    | some (object base) => descent base members + 1
    | _ => 0
  | _ => 0

end

end AuthorWatch.Json
