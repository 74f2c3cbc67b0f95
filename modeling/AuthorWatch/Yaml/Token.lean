import AuthorWatch.Text.Utf8
import AuthorWatch.Yaml.Scalar

/-! Tokens of a YAML document. Indentation is turned into tokens that open and close
block collections. Whether a scalar is a key shows only at the colon behind it; until
then a slot stands before it, which becomes the tokens for a key or vanishes. -/

namespace AuthorWatch.Yaml

inductive Directive where
  | version (major : Nat)
  | tag (handle lead : Text)
  | other
  deriving DecidableEq

inductive Token where
  | directive (d : Directive)
  | documentStart
  | documentEnd
  | blockSequenceStart
  | blockMappingStart
  | blockEnd
  | flowSequenceStart
  | flowSequenceEnd
  | flowMappingStart
  | flowMappingEnd
  | flowEntry
  | blockEntry
  | key
  | value
  | alias (name : Text)
  | anchor (name : Text)
  | tag (handle : Option Text) (suffix : Text)
  | scalar (t : Text) (isPlain : Bool)
  deriving DecidableEq

/-! ### Words with an indicator -/

/-- A glyph of the names of anchors, directives and tag handles. -/
def isWordGlyph (g : Glyph) : Bool := g.satisfies fun c => c.isAlphanum || c = '-' || c = '_'

def isUriGlyph (g : Glyph) : Bool :=
  g.satisfies fun c => c.isAlphanum || "-;/?:@&=+$,_.!~*'()[]%".toList.contains c

def isSpaceOrBreak (g : Glyph) : Bool := g = .char ' ' || isBreak g

/-- A word that is not empty. -/
def word (c : Cursor) : Except YamlError (Text × Cursor) :=
  match c.takeWhile isWordGlyph with
  | ([], _) => .error .malformed
  | found => .ok found

/-- The name of an anchor or alias after its indicator. -/
def anchorName (c : Cursor) : Except YamlError (Text × Cursor) := do
  let (name, c) ← word c.next
  if endsAt (fun g => isGapOrBreak g || among "?:,]\x7d%@`" g) c.peek? then return (name, c)
  else throw .malformed

/-- Bytes written with percent signs, as many as follow one another. -/
def percentBytes : Nat → List UInt8 → Cursor → Except YamlError (List UInt8 × Cursor)
  | 0, done, c => .ok (done.reverse, c)
  | fuel + 1, done, c =>
    if c.isAt '%' then
      match (c.peekAt? 1).bind Glyph.hexDigit?, (c.peekAt? 2).bind Glyph.hexDigit? with
      | some high, some low => percentBytes fuel ((high * 16 + low).toUInt8 :: done) (c.advance 3)
      | _, _ => .error .malformed
    else .ok (done.reverse, c)

/-- The glyphs of a tag, its percent signs resolved. -/
def uriGlyphs : Nat → Text → Cursor → Except YamlError (Text × Cursor)
  | 0, done, c => .ok (done, c)
  | fuel + 1, done, c =>
    let (run, c) := c.takeWhile fun g => isUriGlyph g && g ≠ .char '%'
    let done := done ++ run
    if c.isAt '%' then
      match percentBytes (c.rest.length + 1) [] c with
      | .error e => .error e
      | .ok (bytes, c) =>
        match Utf8.decode? bytes with
        | some t => uriGlyphs fuel (done ++ t) c
        | none => .error .malformed
    else .ok (done, c)

def uri (c : Cursor) : Except YamlError (Text × Cursor) :=
  match c.peek? with
  | some g => if isUriGlyph g then uriGlyphs (c.rest.length + 1) [] c else .error .malformed
  | none => .error .malformed

/-- A tag handle: an exclamation mark, or a word between two. -/
def tagHandle (c : Cursor) : Except YamlError (Text × Cursor) :=
  if !c.isAt '!' then .error .malformed
  else if c.next.isAt ' ' then .ok ("!", c.next)
  else
    let (name, c) := c.next.takeWhile isWordGlyph
    if c.isAt '!' then .ok ("!" ++ name ++ "!", c.next) else .error .malformed

/-- Whether an exclamation mark follows before the next space. -/
def hasSecondMark (c : Cursor) : Bool :=
  .char '!' ∈ c.next.rest.takeWhile fun g => !isSpaceOrBreak g

def tagToken (c : Cursor) : Except YamlError (Token × Cursor) := do
  let (token, c) ←
    if c.next.isAt '<' then do
      let (suffix, c) ← uri (c.advance 2)
      if c.isAt '>' then pure (Token.tag none suffix, c.next) else throw .malformed
    else if endsAt isGapOrBreak c.next.peek? then
      pure (Token.tag none "!", c.next)
    else do
      let (handle, c) ← if hasSecondMark c then tagHandle c else pure (Text.ofString "!", c.next)
      let (suffix, c) ← uri c
      pure (Token.tag (some handle) suffix, c)
  if endsAt isSpaceOrBreak c.peek? then return (token, c) else throw .malformed

/-! ### Directives -/

/-- A number of a version. -/
def versionNumber (c : Cursor) : Except YamlError (Nat × Cursor) :=
  match Decimal.takeDigits c.rest with
  | ([], _) => .error .malformed
  | (ds, _) => .ok (Decimal.value ds, c.advance ds.length)

def directiveBody (name : Text) (c : Cursor) : Except YamlError (Directive × Cursor) :=
  if name = "YAML" then do
    let (major, c) ← versionNumber c.skipSpaces
    if !c.isAt '.' then throw .malformed
    let (_, c) ← versionNumber c.next
    if endsAt isSpaceOrBreak c.peek? then return (.version major, c) else throw .malformed
  else if name = "TAG" then do
    let (handle, c) ← tagHandle c.skipSpaces
    if !c.isAt ' ' then throw .malformed
    let (lead, c) ← uri c.skipSpaces
    if endsAt isSpaceOrBreak c.peek? then return (.tag handle lead, c) else throw .malformed
  else .ok (.other, c.skipWhile fun g => !isBreak g)

/-- A directive, which takes its whole line. -/
def directive (c : Cursor) : Except YamlError (Directive × Cursor) := do
  let (name, c) ← word c.next
  if !endsAt isSpaceOrBreak c.peek? then throw .malformed
  let (d, c) ← directiveBody name c
  match c.restOfLine? with
  | some c => return (d, c)
  | none => throw .malformed

/-! ### The lexer -/

/-- A token that may turn out to start a key. A key ends on its line, within 1024
glyphs. A token at the column of a block mapping has to start one. -/
structure PossibleKey where
  slot : Nat
  required : Bool
  index : Nat
  line : Nat
  column : Nat

/-- A token, or the slot before a token that may start a key. -/
inductive Piece where
  | token (t : Token)
  | slot (number : Nat)

/-- What a filled slot stands for: a key, which may open a block mapping. -/
structure Filling where
  slot : Nat
  opensMapping : Bool

structure Lexer where
  cursor : Cursor
  /-- The pieces so far, the latest first. -/
  pieces : List Piece
  slots : Nat
  fillings : List Filling
  /-- The column of the innermost block collection, and those around it. -/
  indent : Int
  indents : List Int
  /-- The possible key at each level of brackets, the innermost first. -/
  keys : List (Option PossibleKey)
  /-- Whether a key may start here. -/
  allowsKey : Bool

namespace Lexer

def ofText (t : Text) : Lexer :=
  let c := Cursor.ofText t
  let c := if c.isAt '\uFEFF' then c.next else c
  ⟨c, [], 0, [], -1, [], [none], true⟩

def inFlow (l : Lexer) : Bool := 1 < l.keys.length

def push (l : Lexer) (t : Token) : Lexer := { l with pieces := .token t :: l.pieces }

/-- A key has ended or grown too long without its colon. -/
def isStale (c : Cursor) (k : PossibleKey) : Bool := k.line ≠ c.line || 1024 < c.index - k.index

/-- Forgets keys that are no longer possible. -/
def forgetStale (l : Lexer) : Except YamlError Lexer :=
  let stale (k : Option PossibleKey) : Bool := k.any (isStale l.cursor)
  if l.keys.any fun k => stale k && k.any (·.required) then .error .malformed
  else .ok { l with keys := l.keys.map fun k => if stale k then none else k }

/-- Gives up the possible key of this level. -/
def dropKey (l : Lexer) : Except YamlError Lexer :=
  match l.keys with
  | some k :: rest =>
    if k.required then .error .malformed else .ok { l with keys := none :: rest }
  | _ => .ok l

/-- Notes that the next token may start a key. -/
def saveKey (l : Lexer) : Except YamlError Lexer :=
  if l.allowsKey then do
    let l ← l.dropKey
    let k : PossibleKey :=
      ⟨l.slots, !l.inFlow && l.indent == l.cursor.column, l.cursor.index, l.cursor.line,
        l.cursor.column⟩
    return { l with
      keys := some k :: l.keys.drop 1
      pieces := .slot l.slots :: l.pieces
      slots := l.slots + 1 }
  else .ok l

/-- Closes block collections that start right of a column. -/
def closeTo (column indent : Int) (pieces : List Piece) : List Int → Int × List Int × List Piece
  | [] => (indent, [], pieces)
  | outer :: rest =>
    if column < indent then closeTo column outer (.token .blockEnd :: pieces) rest
    else (indent, outer :: rest, pieces)

/-- Brackets hide indentation. -/
def unwind (l : Lexer) (column : Int) : Lexer :=
  if l.inFlow then l
  else
    let (indent, indents, pieces) := closeTo column l.indent l.pieces l.indents
    { l with indent, indents, pieces }

/-- Opens a block collection at a column unless one is open there. -/
def openAt (l : Lexer) (column : Int) : Bool × Lexer :=
  if l.indent < column then
    (true, { l with indents := l.indent :: l.indents, indent := column })
  else (false, l)

/-- Opens a block collection that starts with this token. -/
def openHere (l : Lexer) (start : Token) : Lexer :=
  match l.openAt l.cursor.column with
  | (true, l) => l.push start
  | (false, l) => l

/-- Passes spaces, comments and line ends. -/
def skipToToken : Nat → Lexer → Lexer
  | 0, l => l
  | fuel + 1, l =>
    let c := l.cursor.skipSpaces.skipComment
    match c.lineBreak? with
    | some (_, c) =>
      skipToToken fuel { l with cursor := c, allowsKey := l.allowsKey || !l.inFlow }
    | none => { l with cursor := c }

def documentMark (l : Lexer) (t : Token) : Except YamlError Lexer := do
  let l ← (l.unwind (-1)).dropKey
  return { l with cursor := l.cursor.advance 3, allowsKey := false }.push t

def flowStart (l : Lexer) (t : Token) : Except YamlError Lexer := do
  let l ← l.saveKey
  return { l with keys := none :: l.keys, allowsKey := true, cursor := l.cursor.next }.push t

/-- A closing bracket without an opening one is an error. -/
def flowEnd (l : Lexer) (t : Token) : Except YamlError Lexer := do
  let l ← l.dropKey
  if !l.inFlow then throw .malformed
  return { l with keys := l.keys.drop 1, allowsKey := false, cursor := l.cursor.next }.push t

def flowEntry (l : Lexer) : Except YamlError Lexer := do
  let l ← { l with allowsKey := true }.dropKey
  return { l with cursor := l.cursor.next }.push .flowEntry

def blockEntry (l : Lexer) : Except YamlError Lexer := do
  if !l.inFlow && !l.allowsKey then throw .malformed
  let l := if l.inFlow then l else l.openHere .blockSequenceStart
  let l ← { l with allowsKey := true }.dropKey
  return { l with cursor := l.cursor.next }.push .blockEntry

def keyMark (l : Lexer) : Except YamlError Lexer := do
  if !l.inFlow && !l.allowsKey then throw .malformed
  let l := if l.inFlow then l else l.openHere .blockMappingStart
  let l ← { l with allowsKey := !l.inFlow }.dropKey
  return { l with cursor := l.cursor.next }.push .key

/-- A colon fills the slot of the possible key of its level, or follows a longer key. -/
def valueMark (l : Lexer) : Except YamlError Lexer := do
  match l.keys with
  | some k :: rest =>
    let l := { l with keys := none :: rest }
    let (opens, l) := if l.inFlow then (false, l) else l.openAt k.column
    let l := { l with fillings := ⟨k.slot, opens⟩ :: l.fillings, allowsKey := false }
    return { l with cursor := l.cursor.next }.push .value
  | _ =>
    if !l.inFlow && !l.allowsKey then throw .malformed
    let l := if l.inFlow then l else l.openHere .blockMappingStart
    let l := { l with allowsKey := !l.inFlow }
    return { l with cursor := l.cursor.next }.push .value

/-- A token that may start a key and after which none starts. -/
def nodeToken (l : Lexer) (read : Cursor → Except YamlError (Token × Cursor)) :
    Except YamlError Lexer := do
  let l ← l.saveKey
  let (t, c) ← read l.cursor
  return { l with cursor := c, allowsKey := false }.push t

def blockScalar (l : Lexer) (fold : Bool) : Except YamlError Lexer := do
  let l ← { l with allowsKey := true }.dropKey
  let (t, c) ← block fold l.indent l.cursor
  return { l with cursor := c }.push (.scalar t false)

def plainScalar (l : Lexer) : Except YamlError Lexer := do
  let l ← l.saveKey
  let c := l.cursor
  let (t, ended, c) := plain l.inFlow (l.indent + 1).toNat (c.rest.length + 1) [] [] false c
  return { l with cursor := c, allowsKey := ended }.push (.scalar t true)

/-- Whether a mark of block collections stands by itself here. Inside brackets a question
mark or a colon always does. -/
def isMark (l : Lexer) (ch : Char) : Bool :=
  l.cursor.isAt ch && ((l.inFlow && ch ≠ '-') || endsAt isGapOrBreak (l.cursor.peekAt? 1))

/-- Whether a plain scalar starts with a glyph. -/
def startsPlain (l : Lexer) (g : Glyph) : Bool :=
  !(isGapOrBreak g || among "-?:,[]\x7b\x7d#&*!|>'\"%@`" g)
    || (!endsAt isGapOrBreak (l.cursor.peekAt? 1)
      && (g = .char '-' || (!l.inFlow && among "?:" g)))

/-- The next token, or nothing at the end of the document. -/
def step (l : Lexer) : Except YamlError (Option Lexer) := do
  let l := skipToToken (l.cursor.rest.length + 1) l
  let l ← l.forgetStale
  let l := l.unwind l.cursor.column
  let c := l.cursor
  let next (r : Except YamlError Lexer) : Except YamlError (Option Lexer) := some <$> r
  match c.peek? with
  | none => return none
  | some g =>
    if c.column = 0 ∧ g = .char '%' then
      next do
        let l ← (l.unwind (-1)).dropKey
        let (d, c) ← directive l.cursor
        return { l with cursor := c, allowsKey := false }.push (.directive d)
    else if c.column = 0 ∧ c.standsAlone "---" then next (l.documentMark .documentStart)
    else if c.column = 0 ∧ c.standsAlone "..." then next (l.documentMark .documentEnd)
    else if g = .char '[' then next (l.flowStart .flowSequenceStart)
    else if g = .char '\x7b' then next (l.flowStart .flowMappingStart)
    else if g = .char ']' then next (l.flowEnd .flowSequenceEnd)
    else if g = .char '\x7d' then next (l.flowEnd .flowMappingEnd)
    else if g = .char ',' then next l.flowEntry
    else if l.isMark '-' then next l.blockEntry
    else if l.isMark '?' then next l.keyMark
    else if l.isMark ':' then next l.valueMark
    else if g = .char '*' then next (l.nodeToken fun c => do
      let (name, c) ← anchorName c
      return (.alias name, c))
    else if g = .char '&' then next (l.nodeToken fun c => do
      let (name, c) ← anchorName c
      return (.anchor name, c))
    else if g = .char '!' then next (l.nodeToken tagToken)
    else if g = .char '|' ∧ !l.inFlow then next (l.blockScalar false)
    else if g = .char '>' ∧ !l.inFlow then next (l.blockScalar true)
    else if g = .char '\x27' ∨ g = .char '"' then next (l.nodeToken fun c => do
      let (t, c) ← quoted (g = .char '"') c
      return (.scalar t false, c))
    else if l.startsPlain g then next l.plainScalar
    else throw .malformed

/-- All tokens. Every step but the last takes a glyph, which bounds the fuel. -/
def run : Nat → Lexer → Except YamlError Lexer
  | 0, _ => .error .malformed
  | fuel + 1, l =>
    match l.step with
    | .error e => .error e
    | .ok (some l) => run fuel l
    | .ok none =>
      -- the end closes all that is open
      (skipToToken (l.cursor.rest.length + 1) l).unwind (-1) |>.dropKey

/-- The tokens that a piece stands for. -/
def Piece.tokens (fillings : List Filling) : Piece → List Token
  | .token t => [t]
  | .slot n =>
    match fillings.find? fun f => f.slot = n with
    | some f => if f.opensMapping then [.blockMappingStart, .key] else [.key]
    | none => []

/-- The pieces in order, with slots filled or left out. -/
def tokens (l : Lexer) : List Token := l.pieces.reverse.flatMap (Piece.tokens l.fillings)

end Lexer

/-- The tokens of a document. -/
def Token.ofText (t : Text) : Except YamlError (List Token) :=
  ((Lexer.ofText t).run (t.length + 2)).map Lexer.tokens

end AuthorWatch.Yaml
