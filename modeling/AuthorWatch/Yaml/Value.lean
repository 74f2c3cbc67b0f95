import AuthorWatch.Json.Basic
import AuthorWatch.Text.Utf8
import AuthorWatch.Yaml.Literal
import AuthorWatch.Yaml.Node

/-! The value of a document, as far as settings need it. Keys that are no texts name no
setting and are left out, and what no setting takes becomes an empty array. A document
is built level by level: of several faults the one on the highest level counts, and of
those on one level the first. -/

namespace AuthorWatch.Yaml

/-- A value whose mappings have labels. Two mappings with one label are one mapping that stands
at two places. -/
inductive Value where
  | plain (v : Json)
  | mapping (label : Nat) (members : List (Text × Value))
  deriving Inhabited

/-- A value, or a fault with its level below the node. -/
abbrev Built (α : Type) := Except (Nat × YamlError) α

namespace Built

variable {α β γ : Type}

/-- A fault of the node itself. -/
def here (x : Except YamlError α) : Built α := x.mapError (0, ·)

/-- What stands one level below. -/
def below (x : Built α) : Built α := x.mapError fun (level, e) => (level + 1, e)

/-- Two values, or the fault that counts. -/
def both (f : α → β → γ) : Built α → Built β → Built γ
  | .ok a, .ok b => .ok (f a b)
  | .ok _, .error e => .error e
  | .error e, .ok _ => .error e
  | .error e, .error e' => .error (if e'.1 < e.1 then e' else e)

def all : List (Built α) → Built (List α)
  | [] => .ok []
  | x :: rest => both List.cons x (all rest)

end Built

/-- A pair of a mapping. -/
structure Pair where
  /-- The key, if it is a text. -/
  key : Built (Option Text)
  value : Built Value

namespace Pair

/-- The members of a mapping from its pairs, in order. A later value for a key counts. -/
def toMembers (pairs : List Pair) : Built (List (Text × Value)) :=
  (Built.all (pairs.map fun p => Built.both (fun k v => k.map (·, v)) p.key p.value)).map
    fun found => Assoc.insertAll [] (found.filterMap id)

end Pair

namespace Tag

/-- Whether values with this tag can be keys. -/
def isHashable : Tag → Bool
  | sequence | mapping | set | orderedMap | pairs => false
  | _ => true

end Tag

namespace Node

def tag : Node → Tag
  | scalar tag _ => tag
  | sequence tag _ => tag
  | mapping _ tag _ => tag
  | loop _ => .null

mutual

/-- The text of a node that is to be a scalar; that of a mapping is its own value. -/
def scalarText? : Node → Option Text
  | scalar _ t => some t
  | mapping _ _ pairs => ownText? pairs
  | _ => none

def ownText? : List (Node × Node) → Option Text
  | [] => none
  | (k, v) :: rest => if k.tag = .ownValue then scalarText? v else ownText? rest

end

/-- The value of a scalar by its tag. -/
def scalarValue (tag : Tag) (t : Text) : Except YamlError Json :=
  match tag with
  | .null => .ok .null
  | .flag => (Literal.flag t).map .bool
  | .integer => (Literal.integer t).map .int
  | .number => (Literal.number t).map .float
  | .binary =>
    (Literal.bytes t).map fun bytes => ((Utf8.decode? bytes).map Json.text).getD (.array [])
  | .timestamp => (Literal.moment t).map fun _ => .array []
  | .text => .ok (.text t)
  | _ => .error .malformed

/-- The value of a node with the tag of a scalar. A moment is read off a scalar only. -/
def asScalar (tag : Tag) (n : Node) : Built Json :=
  .here (match tag, n, n.scalarText? with
    | _, _, none => .error .malformed
    | .timestamp, mapping .., some _ => .error .notText
    | tag, _, some t => scalarValue tag t)

/-- A key, which is the text of an own value too. Collections cannot be keys. -/
def asKey (n : Node) : Built (Option Text) :=
  match n.tag with
  | .text => (n.asScalar .text).map fun _ => n.scalarText?
  | .ownValue => (n.asScalar .text).map fun _ => n.scalarText?
  | tag => if tag.isHashable then (n.asScalar tag).map fun _ => none else .error (0, .malformed)

/-- The pairs of a mapping, those of the mappings merged into it before its own. -/
def merged (parts : Except YamlError (List Pair × List Pair)) : Except YamlError (List Pair) :=
  parts.map fun (others, own) => others ++ own

/-- The members of a mapping. -/
def opened (parts : Except YamlError (List Pair × List Pair)) : Built (List (Text × Value)) :=
  match merged parts with
  | .error e => .error (0, e)
  | .ok found => Pair.toMembers found

mutual

/-- The value of a node. Collections are opened one level below it. -/
def value : Node → Built Value
  | scalar tag t =>
    if tag.isHashable then (Built.here (scalarValue tag t)).map .plain else .error (1, .malformed)
  | sequence tag items =>
    match tag with
    | .sequence => (Built.all (values items)).below.map fun _ => .plain (.array [])
    | .orderedMap | .pairs => (singles items).below.map fun _ => .plain (.array [])
    | .mapping | .set => .error (1, .malformed)
    | _ => .error (0, .malformed)
  | mapping label tag pairs =>
    match tag with
    | .mapping => (opened (split pairs)).below.map (.mapping label)
    | .set => (opened (split pairs)).below.map fun _ => .plain (.array [])
    | .sequence | .orderedMap | .pairs => .error (1, .malformed)
    | tag => ((mapping label tag pairs).asScalar tag).map .plain
  | loop _ => .ok (.plain (.array []))

def values : List Node → List (Built Value)
  | [] => []
  | n :: rest => value n :: values rest

/-- Mappings of one pair each. -/
def singles : List Node → Built Unit
  | [] => .ok ()
  | mapping _ _ [(k, v)] :: rest =>
    Built.both (fun _ _ => ()) (Built.both (fun _ _ => ()) (value k) (value v)) (singles rest)
  | _ => .error (0, .malformed)

/-- The pairs to be merged in, and a mapping's own. -/
def split : List (Node × Node) → Except YamlError (List Pair × List Pair)
  | [] => .ok ([], [])
  | (k, v) :: rest =>
    if k.tag = .merge then
      match source v, split rest with
      | .ok pairs, .ok (others, own) => .ok (pairs ++ others, own)
      | _, _ => .error .malformed
    else (split rest).map fun (others, own) => (others, ⟨k.asKey, value v⟩ :: own)

/-- The pairs of a mapping, or of a sequence of mappings, the last one first. -/
def source : Node → Except YamlError (List Pair)
  | mapping _ _ pairs => merged (split pairs)
  | sequence _ items => (sources items).map fun found => found.reverse.flatten
  | _ => .error .malformed

def sources : List Node → Except YamlError (List (List Pair))
  | [] => .ok []
  | mapping _ _ pairs :: rest =>
    match merged (split pairs), sources rest with
    | .ok found, .ok more => .ok (found :: more)
    | _, _ => .error .malformed
  | _ => .error .malformed

end

end Node

/-- A glyph that may stand in a document as it is. -/
def isPrintable (g : Glyph) : Bool :=
  g.satisfies fun c =>
    c = '\t' || c = '\n' || c = '\r' || (' ' ≤ c && c ≤ '~') || c = '\u0085'
      || ('\u00A0' ≤ c && c ≠ '\uFFFE' && c ≠ '\uFFFF')

/-- The value of a text: its one document, or nothing. -/
def read (t : Text) : Except YamlError Value := do
  if !t.all isPrintable then throw .malformed
  match ← Node.ofTokens (← Token.ofText t) with
  | none => return .plain .null
  | some n => n.value.mapError Prod.snd

end AuthorWatch.Yaml
