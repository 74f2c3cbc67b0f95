import AuthorWatch.Text.Basic

/-! Paths, as segments between slashes. Empty segments and single dots mean nothing and
are left out. -/

namespace AuthorWatch

/-- The names from the root of a file tree down to an entry. -/
abbrev Place := List Text

structure Path where
  absolute : Bool
  segments : List Text
  deriving DecidableEq, Inhabited

namespace Path

def ofText (t : Text) : Path where
  absolute := t.startsWith "/"
  segments := (t.splitOn (.char '/')).filter fun s => s ≠ [] ∧ s ≠ "."

/-- The path as written; the path without segments is a dot. -/
def toText (p : Path) : Text :=
  let names := Text.join "/" p.segments
  if p.absolute then .char '/' :: names else if names.isEmpty then "." else names

def parent (p : Path) : Path := { p with segments := p.segments.dropLast }

/-- The path of a file beside this one whose name has an ending more; a path without
segments names no file. -/
def sibling? (p : Path) (ending : Text) : Option Path :=
  p.segments.getLast?.map fun name => { p with segments := p.segments.dropLast ++ [name ++ ending] }

/-- Where a path sets out: at the root, or at the place where relative paths start. -/
def origin (start : Place) (p : Path) : Place := if p.absolute then [] else start

/-- One step down, or up if the segment is two dots. -/
def descend (place : Place) (segment : Text) : Place :=
  if segment = ".." then place.dropLast else place ++ [segment]

/-- The place of a path by its text alone. This is where the path leads, if it leads anywhere. -/
def placeFrom (start : Place) (p : Path) : Place := p.segments.foldl descend (p.origin start)

/-- The places passed from a place on, segment by segment. -/
def wayFrom (place : Place) : List Text → List Place
  | [] => [place]
  | segment :: rest => place :: wayFrom (descend place segment) rest

/-- The places that a path passes, the first and the last included. -/
def way (start : Place) (p : Path) : List Place := wayFrom (p.origin start) p.segments

end Path

end AuthorWatch
