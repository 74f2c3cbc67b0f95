import AuthorWatch.Yaml.Basic
import AuthorWatch.Yaml.Cursor

/-! The texts of scalars as they are written: plain, between quotes, and as a block of
lines. Inside a scalar a single line end is a space, and of several the first is lost. -/

namespace AuthorWatch.Yaml

/-- What a line end and the ones after it stand for. -/
def folded (first : Glyph) (more : Text) : Text :=
  if first ≠ .char '\n' then first :: more else if more.isEmpty then [.char ' '] else more

/-! ### Plain scalars -/

/-- The number of glyphs of a plain scalar up to a gap or a mark that ends it. Inside
brackets more marks do. -/
def plainRun (inFlow : Bool) : Text → Nat
  | [] => 0
  | g :: rest =>
    let endsValue (h : Glyph) : Bool := isGapOrBreak h || (inFlow && among ",[]\x7b\x7d" h)
    if isGapOrBreak g || (g = .char ':' && endsAt endsValue rest.head?)
        || (inFlow && among ",?[]\x7b\x7d" g) then 0
    else 1 + plainRun inFlow rest

/-- The line ends between lines of a plain scalar and the spaces around them, unless a
document separator follows. The fuel bounds the glyphs read. -/
def plainBreaks : Nat → Text → Cursor → Option Text × Cursor
  | 0, breaks, c => (some breaks.reverse, c)
  | fuel + 1, breaks, c =>
    let c := c.skipSpaces
    match c.lineBreak? with
    | none => (some breaks.reverse, c)
    | some (b, c) => if c.atSeparator then (none, c) else plainBreaks fuel (b :: breaks) c

/-- What stands between two parts of a plain scalar: its value, whether a line ended,
and the cursor after it. -/
def plainSpaces (c : Cursor) : Text × Bool × Cursor :=
  let (spaces, c) := c.takeWhile (· = .char ' ')
  match c.lineBreak? with
  | none => (spaces, false, c)
  | some (first, c) =>
    if c.atSeparator then ([], true, c)
    else
      match plainBreaks c.rest.length [] c with
      | (none, c) => ([], true, c)
      | (some more, c) => (folded first more, true, c)

/-- A plain scalar, its column being at least `indent` on each line outside brackets. The
flag says whether a line ended behind it. -/
def plain (inFlow : Bool) (indent : Nat) : Nat → Text → Text → Bool → Cursor → Text × Bool × Cursor
  | 0, done, _, ended, c => (done, ended, c)
  | fuel + 1, done, spaces, ended, c =>
    let count := if c.isAt '#' then 0 else plainRun inFlow c.rest
    if count = 0 then (done, ended, c)
    else
      let done := done ++ spaces ++ c.rest.take count
      let (spaces, ended, c) := plainSpaces (c.advance count)
      if spaces.isEmpty || (!inFlow && c.column < indent) then (done, ended, c)
      else plain inFlow indent fuel done spaces ended c

/-! ### Quoted scalars -/

/-- The line ends between lines of a quoted scalar, and the gaps around them. A document
separator may not stand there. -/
def quotedBreaks : Nat → Text → Cursor → Except YamlError (Text × Cursor)
  | 0, breaks, c => .ok (breaks.reverse, c)
  | fuel + 1, breaks, c =>
    if c.atSeparator then .error .malformed
    else
      let c := c.skipWhile isGap
      match c.lineBreak? with
      | none => .ok (breaks.reverse, c)
      | some (b, c) => quotedBreaks fuel (b :: breaks) c

/-- The gaps and line ends between words of a quoted scalar. -/
def quotedSpaces (c : Cursor) : Except YamlError (Text × Cursor) :=
  let (gap, c) := c.takeWhile isGap
  match c.lineBreak? with
  | some (first, c) => do
    let (more, c) ← quotedBreaks (c.rest.length + 1) [] c
    return (folded first more, c)
  | none => if c.rest.isEmpty then .error .malformed else .ok (gap, c)

/-- What an escape of one glyph stands for. -/
def escapes : List (Char × Char) :=
  [('0', '\x00'), ('a', '\x07'), ('b', '\x08'), ('t', '\t'), ('\t', '\t'), ('n', '\n'),
    ('v', '\x0B'), ('f', '\x0C'), ('r', '\r'), ('e', '\x1B'), (' ', ' '), ('"', '"'), ('\\', '\\'),
    ('/', '/'), ('N', '\u0085'), ('_', '\u00A0'), ('L', '\u2028'), ('P', '\u2029')]

/-- The number of hexadecimal digits after a letter. -/
def escapeLengths : List (Char × Nat) := [('x', 2), ('u', 4), ('U', 8)]

/-- The glyph of so many hexadecimal digits. -/
def hexEscape (count : Nat) (c : Cursor) : Except YamlError (Text × Cursor) :=
  let digits := (c.rest.take count).filterMap Glyph.hexDigit?
  if digits.length < count then .error .malformed
  else
    let code := digits.foldl (fun n d => n * 16 + d) 0
    match Glyph.ofNat? code with
    | some g => .ok ([g], c.advance count)
    | none => .error (.noCharacter code)

/-- What an escape stands for, after its backslash. -/
def escape (c : Cursor) : Except YamlError (Text × Cursor) :=
  match c.peek? with
  | none => .error .malformed
  | some g =>
    match g.char?.bind (escapes.lookup ·), g.char?.bind (escapeLengths.lookup ·) with
    | some ch, _ => .ok ([.char ch], c.next)
    | none, some count => hexEscape count c.next
    | none, none =>
      match c.lineBreak? with
      | some (_, c) => quotedBreaks (c.rest.length + 1) [] c
      | none => .error .malformed

/-- A word of a scalar between double quotes, up to a gap, a line end or the quote. -/
def doubleWord : Nat → Text → Cursor → Except YamlError (Text × Cursor)
  | 0, done, c => .ok (done, c)
  | fuel + 1, done, c =>
    let (run, c) := c.takeWhile fun g => !(isGapOrBreak g || among "\"\\" g)
    let done := done ++ run
    if c.isAt '\\' then
      match escape c.next with
      | .error e => .error e
      | .ok (t, c) => doubleWord fuel (done ++ t) c
    else .ok (done, c)

/-- A word of a scalar between single quotes, in which a quote is written twice. -/
def singleWord : Nat → Text → Cursor → Text × Cursor
  | 0, done, c => (done, c)
  | fuel + 1, done, c =>
    let (run, c) := c.takeWhile fun g => !(isGapOrBreak g || g = .char '\x27')
    let done := done ++ run
    if c.isAt '\x27' && c.next.isAt '\x27' then
      singleWord fuel (done ++ [.char '\x27']) (c.advance 2)
    else (done, c)

def quotedWord (double : Bool) (done : Text) (c : Cursor) : Except YamlError (Text × Cursor) :=
  let fuel := c.rest.length + 1
  if double then doubleWord fuel done c else .ok (singleWord fuel done c)

/-- The words of a quoted scalar up to its closing quote, and what stands between them. -/
def quotedWords (double : Bool) : Nat → Text → Cursor → Except YamlError (Text × Cursor)
  | 0, _, _ => .error .malformed
  | fuel + 1, done, c => do
    let (done, c) ← quotedWord double done c
    if c.isAt (if double then '"' else '\x27') then return (done, c.next)
    let (spaces, c) ← quotedSpaces c
    quotedWords double fuel (done ++ spaces) c

/-- A quoted scalar from its opening quote on. -/
def quoted (double : Bool) (c : Cursor) : Except YamlError (Text × Cursor) :=
  quotedWords double (c.rest.length + 1) [] c.next

/-! ### Block scalars -/

/-- What becomes of the line ends behind a block scalar. -/
inductive Chomping where
  | clip | strip | keep
  deriving DecidableEq

/-- The marks behind the indicator of a block scalar. -/
structure BlockHeader where
  chomping : Chomping
  indent : Option Nat

def chomping? (c : Cursor) : Option Chomping :=
  if c.isAt '+' then some .keep else if c.isAt '-' then some .strip else none

/-- An indentation given by a digit, which is not zero. -/
def indentDigit (c : Cursor) : Except YamlError (Option Nat × Cursor) :=
  match c.peek?.bind Glyph.digit? with
  | none => .ok (none, c)
  | some 0 => .error .malformed
  | some d => .ok (some d, c.next)

def blockHeader (c : Cursor) : Except YamlError (BlockHeader × Cursor) := do
  let (header, c) ← match chomping? c with
    | some chomping => do
      let (indent, c) ← indentDigit c.next
      pure (BlockHeader.mk chomping indent, c)
    | none => do
      let (indent, c) ← indentDigit c
      pure (match if indent.isSome then chomping? c else none with
        | some chomping => (BlockHeader.mk chomping indent, c.next)
        | none => (BlockHeader.mk .clip indent, c))
  if endsAt (fun g => g = .char ' ' || isBreak g) c.peek? then return (header, c)
  else throw .malformed

/-- The empty lines in front of a block scalar: their ends, and the widest indentation. -/
def blockLead : Nat → Text → Nat → Cursor → Text × Nat × Cursor
  | 0, breaks, widest, c => (breaks.reverse, widest, c)
  | fuel + 1, breaks, widest, c =>
    let (spaces, c) := c.takeWhile (· = .char ' ')
    let widest := if spaces.isEmpty then widest else max widest c.column
    match c.lineBreak? with
    | none => (breaks.reverse, widest, c)
    | some (b, c) => blockLead fuel (b :: breaks) widest c

/-- Spaces up to a column. -/
def skipIndent (indent : Nat) (c : Cursor) : Cursor :=
  c.advance (min (indent - c.column) (c.takeWhile (· = .char ' ')).1.length)

/-- The empty lines between lines of a block scalar, and the indentation after them. -/
def blockBreaks (indent : Nat) : Nat → Text → Cursor → Text × Cursor
  | 0, breaks, c => (breaks.reverse, c)
  | fuel + 1, breaks, c =>
    let c := skipIndent indent c
    match c.lineBreak? with
    | none => (breaks.reverse, c)
    | some (b, c) => blockBreaks indent fuel (b :: breaks) c

/-- What a block scalar holds so far: its text, the end of its last line, and the empty
lines after that. -/
structure BlockText where
  text : Text
  lineEnd : Text
  breaks : Text

/-- The lines of a block scalar. -/
def blockLines (fold : Bool) (indent : Nat) : Nat → BlockText → Cursor → BlockText × Cursor
  | 0, b, c => (b, c)
  | fuel + 1, b, c =>
    if c.column ≠ indent ∨ c.rest.isEmpty then (b, c)
    else
      let leadsSpaced := c.peek?.any isGap
      let (line, c) := c.takeWhile fun g => !isBreak g
      let text := b.text ++ b.breaks ++ line
      let (lineEnd, c) := match c.lineBreak? with
        | some (g, c) => ([g], c)
        | none => ([], c)
      let (breaks, c) := blockBreaks indent (c.rest.length + 1) [] c
      if c.column = indent ∧ !c.rest.isEmpty then
        let joint : Text :=
          if fold && lineEnd = [.char '\n'] && !leadsSpaced && !c.peek?.any isGap then
            if breaks.isEmpty then [.char ' '] else []
          else lineEnd
        blockLines fold indent fuel ⟨text ++ joint, [], breaks⟩ c
      else (⟨text, lineEnd, breaks⟩, c)

/-- A block scalar from its indicator on, inside a collection at some column. -/
def block (fold : Bool) (outer : Int) (c : Cursor) : Except YamlError (Text × Cursor) := do
  let (header, c) ← blockHeader c.next
  let some c := c.restOfLine? | throw .malformed
  let least := (max 1 (outer + 1)).toNat
  let fuel := c.rest.length + 1
  let (breaks, indent, c) :=
    match header.indent with
    | none =>
      let (breaks, widest, c) := blockLead fuel [] 0 c
      (breaks, max least widest, c)
    | some d =>
      let indent := least + d - 1
      let (breaks, c) := blockBreaks indent fuel [] c
      (breaks, indent, c)
  let (b, c) := blockLines fold indent fuel ⟨[], [], breaks⟩ c
  let tail := match header.chomping with
    | .strip => []
    | .clip => b.lineEnd
    | .keep => b.lineEnd ++ b.breaks
  return (b.text ++ tail, c)

end AuthorWatch.Yaml
