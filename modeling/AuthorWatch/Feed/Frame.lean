import AuthorWatch.Event
import AuthorWatch.Json.Reader
import AuthorWatch.Notice
import AuthorWatch.Text.Utf8

/-! Frames of the feed. A frame is a JSON array of alternating actions and payloads;
two actions matter, and all others are passed over. A bad pair is dropped by itself,
and a message that is no array has no events. -/

namespace AuthorWatch

/-- A message as it came: text, or bytes that should be the UTF-8 form of one. -/
inductive Message where
  | text (t : Text)
  | binary (bytes : List UInt8)
  deriving DecidableEq

/-- The actions that matter. -/
inductive Action where
  | addedNode | importedBlock
  deriving DecidableEq

namespace Action

def code : Action → Int
  | addedNode => 3
  | importedBlock => 6

/-- Only an integer names an action. -/
def ofJson? : Json → Option Action
  | .int n => if n = 3 then some addedNode else if n = 6 then some importedBlock else none
  | _ => none

/-- The first two items of a payload, the second of them an array of five items at least. -/
def parts? : Json → Option (Json × List Json)
  | .array (ordinal :: .array details :: _) =>
    if details.length < 5 then none else some (ordinal, details)
  | _ => none

/-- The identity of a node: a text, the texts of an array, or unknown. -/
def nodeIdOf : Json → Text
  | .array items => Text.join "," (items.filterMap fun
      | .text t => some t
      | _ => none)
  | .text t => t
  | _ => "unknown"

def textOr (fallback : Text) : Json → Text
  | .text t => t
  | _ => fallback

/-- A payload `[ordinal, [name, _, _, _, id, …], …]`. -/
def announceOf (ordinal : Json) (details : List Json) : Check Announce :=
  let item (i : Nat) : Json := details.getD i .null
  Announce.check [("ordinal", ordinal), ("name", .text (textOr "unknown" (item 0))),
    ("node_id", .text (nodeIdOf (item 4)))]

/-- A payload `[ordinal, [height, hash, _, _, time, …], …]`. A time of null is unknown,
which is zero. -/
def importOf (ordinal : Json) (details : List Json) : Check BlockImport :=
  let item (i : Nat) : Json := details.getD i .null
  BlockImport.check [("node_ordinal", ordinal), ("block_number", item 0),
    ("block_hash", .text (textOr "" (item 1))),
    ("propagation_time", if (item 4).isNull then .int 0 else item 4)]

/-- The event of a payload, unless the payload is too short. -/
def read? (action : Action) (payload : Json) : Option (Check Event) :=
  (parts? payload).map fun (ordinal, details) =>
    match action with
    | addedNode => Event.announce <$> announceOf ordinal details
    | importedBlock => Event.blockImport <$> importOf ordinal details

end Action

/-- The events of a frame in their order, and what is to be said about it. -/
structure Frame where
  events : List Event
  notices : List Notice
  deriving DecidableEq

namespace Frame

/-- An action and its payload. -/
abbrev Pair := Json × Json

/-- The whole pairs of an array. -/
def pairs : List Json → List Pair
  | action :: payload :: rest => (action, payload) :: pairs rest
  | _ => []

/-- The event of a pair, or why there is none. -/
def event (pair : Pair) : Except Notice Event :=
  match Action.ofJson? pair.1 with
  | none => .error .otherAction
  | some action =>
    match action.read? pair.2 with
    | none => .error (.shortPayload action.code)
    | some (.failed _) => .error (.malformedPayload action.code)
    | some (.passed event) => .ok event

def ofPairs (pairs : List Pair) : Frame where
  events := pairs.filterMap fun pair => (event pair).toOption
  notices := pairs.filterMap fun pair =>
    match event pair with
    | .ok _ => none
    | .error notice => some notice

def empty (notice : Notice) : Frame := ⟨[], [notice]⟩

def ofText (t : Text) : Frame :=
  match Json.read .lenient t with
  | .error _ => empty .unreadableFrame
  | .ok (.array items) => ofPairs (pairs items)
  | .ok _ => empty .frameNotArray

def ofMessage : Message → Frame
  | .text t => ofText t
  | .binary bytes =>
    match Utf8.decode? bytes with
    | none => empty .undecodableFrame
    | some t => ofText t

end Frame

end AuthorWatch
