import AuthorWatch.Assoc
import AuthorWatch.Yaml.Tag
import AuthorWatch.Yaml.Token

/-! The nodes of a YAML document, made from its tokens. An alias stands for the node that
its anchor names. Inside that node itself it stands for one more turn of the node. A mapping
has a label, which every copy of it shares, so that it is still known as one mapping. -/

namespace AuthorWatch.Yaml

inductive Node where
  | scalar (tag : Tag) (t : Text)
  | sequence (tag : Tag) (items : List Node)
  | mapping (label : Nat) (tag : Tag) (pairs : List (Node × Node))
  /-- An alias inside the node that it names. -/
  | loop (anchor : Text)
  deriving Inhabited

namespace Node

/-- A scalar that is not written. -/
def empty : Node := scalar .null []

mutual

/-- Puts a node where aliases inside it name it. -/
def close (anchor : Text) (turn : Node) : Node → Node
  | scalar tag t => scalar tag t
  | sequence tag items => sequence tag (closeItems anchor turn items)
  | mapping label tag pairs => mapping label tag (closePairs anchor turn pairs)
  | loop name => if name = anchor then turn else loop name

def closeItems (anchor : Text) (turn : Node) : List Node → List Node
  | [] => []
  | item :: rest => close anchor turn item :: closeItems anchor turn rest

def closePairs (anchor : Text) (turn : Node) : List (Node × Node) → List (Node × Node)
  | [] => []
  | (k, v) :: rest => (close anchor turn k, close anchor turn v) :: closePairs anchor turn rest

end

/-- A collection without its parts. -/
def emptied : Node → Node
  | sequence tag _ => sequence tag []
  | mapping label tag _ => mapping label tag []
  | n => n

/-- A node under an anchor, with one turn of each loop through it. -/
def unrolled (anchor : Text) (n : Node) : Node := close anchor (close anchor n.emptied n) n

end Node

/-- What reading has before it and knows. -/
structure Reader where
  tokens : List Token
  /-- The nodes under anchors; one still being read has none yet. -/
  anchors : List (Text × Option Node)
  handles : List (Text × Text)
  /-- The label of the next mapping. -/
  nextLabel : Nat

abbrev Read (α : Type) := StateT Reader (Except YamlError) α

namespace Read

def peek? : Read (Option Token) := do return (← get).tokens.head?

def skip : Read Unit := modify fun r => { r with tokens := r.tokens.drop 1 }

def nextIs (ts : List Token) : Read Bool := do
  match ← peek? with
  | some t => return t ∈ ts
  | none => return false

/-- A label that no other mapping has. -/
def newLabel : Read Nat :=
  modifyGet fun r => (r.nextLabel, { r with nextLabel := r.nextLabel + 1 })

def expect (t : Token) : Read Unit := do
  if ← nextIs [t] then skip else throw .malformed

/-- The name of an anchor, if one stands here. -/
def anchor? : Read (Option Text) := do
  match ← peek? with
  | some (.anchor name) => skip; return some name
  | _ => return none

/-- The tag that stands here, if there is one: its handle is replaced by its lead. -/
def tag? : Read (Option Text) := do
  match ← peek? with
  | some (.tag handle suffix) =>
    skip
    match handle with
    | none => return some suffix
    | some handle =>
      match Assoc.get? handle (← get).handles with
      | some lead => return some (lead ++ suffix)
      | none => throw .malformed
  | _ => return none

/-- An anchor and a tag before a node, in either order. -/
structure Properties where
  anchor : Option Text
  tag : Option Text

def properties : Read Properties := do
  match ← anchor? with
  | some name => return ⟨some name, ← tag?⟩
  | none =>
    match ← tag? with
    | some tag => return ⟨← anchor?, some tag⟩
    | none => return ⟨none, none⟩

/-- Enters a node under its anchor, which has to be new. -/
def enter (p : Properties) : Read Unit := do
  match p.anchor with
  | none => return
  | some name =>
    if (Assoc.get? name (← get).anchors).isSome then throw .malformed
    modify fun r => { r with anchors := Assoc.insert name none r.anchors }

/-- The node that was read, known under its anchor from now on, also where nodes inside it
name it. -/
def leave (p : Properties) (n : Node) : Read Node := do
  match p.anchor with
  | none => return n
  | some name =>
    let n := n.unrolled name
    let closed := fun (other : Text × Option Node) => (other.1, other.2.map (Node.close name n))
    modify fun r => { r with anchors := Assoc.insert name (some n) (r.anchors.map closed) }
    return n

/-- A tag that leaves the choice to the node's form: none, or a lone exclamation mark. -/
def isOpen (tag : Option Text) : Bool := tag = none || tag = some "!"

def collectionTag (p : Properties) (standard : Tag) : Tag :=
  if isOpen p.tag then standard else (p.tag.map Tag.ofName).getD standard

/-- A plain scalar gets its tag by its form, and so does any under a lone exclamation mark. -/
def scalarTag (p : Properties) (t : Text) (isPlain : Bool) : Tag :=
  match p.tag with
  | none => if isPlain then Tag.ofPlain t else .text
  | some tag => if tag = "!" then Tag.ofPlain t else Tag.ofName tag

/-- Collections may stand this deep in one another. -/
def maxDepth : Nat := 480

mutual

/-- A node. Block collections need a place in a block; a sequence without indentation, a
place in a block mapping. The fuel bounds the tokens read. -/
def node (fuel depth : Nat) (inBlock unindented : Bool) : Read Node := do
  match fuel with
  | 0 => throw .malformed
  | fuel + 1 =>
    match ← peek? with
    | some (.alias name) =>
      skip
      match Assoc.get? name (← get).anchors with
      | none => throw .malformed
      | some none => return .loop name
      | some (some n) => return n
    | _ =>
      let p ← properties
      let collection (read : Nat → Read Node) : Read Node := do
        match depth with
        | 0 => throw .tooDeep
        | depth + 1 =>
          enter p
          leave p (← read depth)
      let sequenceTag := collectionTag p .sequence
      let mappingTag := collectionTag p .mapping
      match ← peek? with
      | some (.scalar t isPlain) =>
        skip
        enter p
        leave p (.scalar (scalarTag p t isPlain) t)
      | some .flowSequenceStart =>
        skip
        collection fun depth => .sequence sequenceTag <$> flowSequence fuel depth true
      | some .flowMappingStart =>
        skip
        collection fun depth => do
          return .mapping (← newLabel) mappingTag (← flowMapping fuel depth true)
      | found =>
        if unindented ∧ found = some .blockEntry then
          collection fun depth => .sequence sequenceTag <$> unindentedSequence fuel depth
        else if inBlock ∧ found = some .blockSequenceStart then do
          skip
          collection fun depth => .sequence sequenceTag <$> blockSequence fuel depth
        else if inBlock ∧ found = some .blockMappingStart then do
          skip
          collection fun depth => do
            return .mapping (← newLabel) mappingTag (← blockMapping fuel depth)
        else if p.anchor.isSome || p.tag.isSome then do
          enter p
          leave p (.scalar (if isOpen p.tag then .null else (p.tag.map Tag.ofName).getD .null) [])
        else throw .malformed
termination_by structural fuel

/-- A node, unless one of some tokens follows, before which it is not written. -/
def nodeUnless (ts : List Token) (fuel depth : Nat) (inBlock unindented : Bool) : Read Node := do
  match fuel with
  | 0 => throw .malformed
  | fuel + 1 => if ← nextIs ts then return .empty else node fuel depth inBlock unindented
termination_by structural fuel

def blockSequence (fuel depth : Nat) : Read (List Node) := do
  match fuel with
  | 0 => throw .malformed
  | fuel + 1 =>
    if ← nextIs [.blockEntry] then
      skip
      let item ← nodeUnless [.blockEntry, .blockEnd] fuel depth true false
      return item :: (← blockSequence fuel depth)
    else
      expect .blockEnd
      return []
termination_by structural fuel

def unindentedSequence (fuel depth : Nat) : Read (List Node) := do
  match fuel with
  | 0 => throw .malformed
  | fuel + 1 =>
    if ← nextIs [.blockEntry] then
      skip
      let item ← nodeUnless [.blockEntry, .key, .value, .blockEnd] fuel depth true false
      return item :: (← unindentedSequence fuel depth)
    else return []
termination_by structural fuel

def blockMapping (fuel depth : Nat) : Read (List (Node × Node)) := do
  match fuel with
  | 0 => throw .malformed
  | fuel + 1 =>
    if ← nextIs [.key] then
      skip
      let k ← nodeUnless [.key, .value, .blockEnd] fuel depth true true
      let v ← blockValue fuel depth
      return (k, v) :: (← blockMapping fuel depth)
    else
      expect .blockEnd
      return []
termination_by structural fuel

/-- The value of a key in a block mapping, which may be missing. -/
def blockValue (fuel depth : Nat) : Read Node := do
  match fuel with
  | 0 => throw .malformed
  | fuel + 1 =>
    if ← nextIs [.value] then
      skip
      nodeUnless [.key, .value, .blockEnd] fuel depth true true
    else return .empty
termination_by structural fuel

/-- The items between brackets. A pair among them is a mapping of its own. -/
def flowSequence (fuel depth : Nat) (first : Bool) : Read (List Node) := do
  match fuel with
  | 0 => throw .malformed
  | fuel + 1 =>
    if ← nextIs [.flowSequenceEnd] then
      skip
      return []
    if !first then expect .flowEntry
    if ← nextIs [.flowSequenceEnd] then
      skip
      return []
    if ← nextIs [.key] then
      skip
      match depth with
      | 0 => throw .tooDeep
      | inner + 1 =>
        let k ← nodeUnless [.value, .flowEntry, .flowSequenceEnd] fuel inner false false
        let v ← flowValue .flowSequenceEnd fuel inner
        return .mapping (← newLabel) .mapping [(k, v)] :: (← flowSequence fuel depth false)
    else
      let item ← node fuel depth false false
      return item :: (← flowSequence fuel depth false)
termination_by structural fuel

/-- The value of a key between brackets, which may be missing. -/
def flowValue (last : Token) (fuel depth : Nat) : Read Node := do
  match fuel with
  | 0 => throw .malformed
  | fuel + 1 =>
    if ← nextIs [.value] then
      skip
      nodeUnless [.flowEntry, last] fuel depth false false
    else return .empty
termination_by structural fuel

/-- The pairs between braces. A node without a mark of a key has no value. -/
def flowMapping (fuel depth : Nat) (first : Bool) : Read (List (Node × Node)) := do
  match fuel with
  | 0 => throw .malformed
  | fuel + 1 =>
    if ← nextIs [.flowMappingEnd] then
      skip
      return []
    if !first then expect .flowEntry
    if ← nextIs [.flowMappingEnd] then
      skip
      return []
    if ← nextIs [.key] then
      skip
      let k ← nodeUnless [.value, .flowEntry, .flowMappingEnd] fuel depth false false
      let v ← flowValue .flowMappingEnd fuel depth
      return (k, v) :: (← flowMapping fuel depth false)
    else
      let k ← node fuel depth false false
      return (k, .empty) :: (← flowMapping fuel depth false)
termination_by structural fuel

end

/-! ### Documents -/

/-- The handles that need no directive. -/
def standardHandles : List (Text × Text) := [("!", "!"), ("!!", Tag.standardLead)]

/-- The directives before a document: one version at most, which has to be a first one,
and one lead for each handle. -/
def directives : Nat → Bool → Read Unit
  | 0, _ => throw .malformed
  | fuel + 1, versioned => do
    match ← peek? with
    | some (.directive d) =>
      skip
      match d with
      | .version major =>
        if versioned || major ≠ 1 then throw .malformed
        directives fuel true
      | .tag handle lead =>
        if (Assoc.get? handle (← get).handles).isSome then throw .malformed
        modify fun r => { r with handles := Assoc.insert handle lead r.handles }
        directives fuel versioned
      | .other => directives fuel versioned
    | _ => return

/-- Handles without a directive get their standard lead. -/
def addStandardHandles : Read Unit :=
  modify fun r => { r with handles := r.handles ++ standardHandles }

def skipDocumentEnds : Nat → Read Unit
  | 0 => throw .malformed
  | fuel + 1 => do
    if ← nextIs [.documentEnd] then
      skip
      skipDocumentEnds fuel

/-- Whether a directive stands here. -/
def atDirective : Read Bool := do
  match ← peek? with
  | some (.directive _) => return true
  | _ => return false

/-- A document with its mark, unless the text ends before it. -/
def explicitDocument (fuel : Nat) : Read (Option Node) := do
  skipDocumentEnds fuel
  if (← peek?).isNone then return none
  directives fuel false
  addStandardHandles
  expect .documentStart
  if (← peek?).isNone || (← nextIs [.documentStart, .documentEnd]) || (← atDirective) then
    return some .empty
  some <$> node fuel maxDepth true false

/-- The one document of a text, if it has any. A second one is an error. -/
def document (fuel : Nat) : Read (Option Node) := do
  let explicit := (← peek?).isNone || (← nextIs [.documentStart]) || (← atDirective)
  let found ←
    if explicit then explicitDocument fuel
    else do
      addStandardHandles
      some <$> node fuel maxDepth true false
  if found.isSome then
    skipDocumentEnds fuel
    if (← peek?).isSome then throw .malformed
  return found

end Read

/-- The node of a list of tokens. A token is read by at most a few steps, which bounds the fuel. -/
def Node.ofTokens (ts : List Token) : Except YamlError (Option Node) :=
  ((Read.document (4 * ts.length + 8)).run ⟨ts, [], [], 0⟩).map Prod.fst

end AuthorWatch.Yaml
