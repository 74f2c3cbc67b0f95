import AuthorWatch.Assoc
import AuthorWatch.Files.Path

/-! A tree of files and directories. The root is a directory. A path is followed segment by
segment, and goes up only from a directory that is there. A file is written only into a
directory that is there, and never over a directory. -/

namespace AuthorWatch

inductive Entry where
  | file (content : List UInt8)
  | directory
  deriving DecidableEq

def Entry.content? : Entry → Option (List UInt8)
  | file content => some content
  | directory => none

/-- Why an operation on files fails. -/
inductive FileError where
  | absent
  | notDirectory
  | isDirectory
  deriving DecidableEq

structure FileTree where
  entries : List (Place × Entry)
  /-- Where relative paths start. -/
  start : Place
  deriving DecidableEq

namespace FileTree

/-- A tree without entries. -/
def empty : FileTree := ⟨[], []⟩

def entryAt? (t : FileTree) (place : Place) : Option Entry :=
  if place = [] then some .directory else Assoc.get? place t.entries

/-- The content of the file at a place, if a file is there. -/
def contentAt? (t : FileTree) (place : Place) : Option (List UInt8) :=
  (t.entryAt? place).bind Entry.content?

def set (t : FileTree) (place : Place) (entry : Entry) : FileTree :=
  { t with entries := Assoc.insert place entry t.entries }

def remove (t : FileTree) (place : Place) : FileTree :=
  { t with entries := t.entries.filter fun entry => entry.1 ≠ place }

/-- The place of a path in the tree, by the text of the path alone. -/
def place (t : FileTree) (p : Path) : Place := p.placeFrom t.start

/-! ### Following paths -/

/-- What is at a place has to be a directory. -/
def checkDirectory (t : FileTree) (place : Place) : Except FileError Unit :=
  match t.entryAt? place with
  | none => .error .absent
  | some (.file _) => .error .notDirectory
  | some .directory => .ok ()

/-- One segment on. A name leads down whatever is there, but only a directory has a way up. -/
def step (t : FileTree) (place : Place) (segment : Text) : Except FileError Place :=
  (if segment = ".." then t.checkDirectory place else .ok ()).map fun _ =>
    Path.descend place segment

/-- The place that a path leads to. -/
def find (t : FileTree) (p : Path) : Except FileError Place :=
  p.segments.foldlM t.step (p.origin t.start)

def lookup? (t : FileTree) (p : Path) : Option Entry :=
  match t.find p with
  | .ok place => t.entryAt? place
  | .error _ => none

def «exists» (t : FileTree) (p : Path) : Bool := (t.lookup? p).isSome

def isFile (t : FileTree) (p : Path) : Bool :=
  match t.lookup? p with
  | some (.file _) => true
  | _ => false

def read (t : FileTree) (p : Path) : Except FileError (List UInt8) :=
  match t.lookup? p with
  | none => .error .absent
  | some .directory => .error .isDirectory
  | some (.file content) => .ok content

/-! ### Changes -/

/-- Gives the file at a place its content, whether it was there or not. A new file needs a
directory to stand in. -/
def put (t : FileTree) (place : Place) (content : List UInt8) : Except FileError FileTree :=
  match t.entryAt? place with
  | some .directory => .error .isDirectory
  | some (.file _) => .ok (t.set place (.file content))
  | none => (t.checkDirectory place.dropLast).map fun _ => t.set place (.file content)

def write (t : FileTree) (p : Path) (content : List UInt8) : Except FileError FileTree :=
  (t.find p).bind fun place => t.put place content

/-- Adds to the end of a file, which starts empty if it was not there. -/
def append (t : FileTree) (p : Path) (content : List UInt8) : Except FileError FileTree :=
  (t.find p).bind fun place => t.put place ((t.contentAt? place).getD [] ++ content)

/-- Makes directories in all these places where nothing is, up to a file in the way. -/
def makeAll (t : FileTree) : List Place → FileTree × Except FileError Unit
  | [] => (t, .ok ())
  | here :: rest =>
    match t.entryAt? here with
    | some .directory => t.makeAll rest
    | some (.file _) => (t, .error .notDirectory)
    | none => (t.set here .directory).makeAll rest

/-- Makes the directories that a path passes. Those that were made stay, also if a file is in
the way further on. -/
def makeDirectory (t : FileTree) (p : Path) : FileTree × Except FileError Unit :=
  t.makeAll (p.way t.start)

/-- Moves a file over another, which it replaces. -/
def replace (t : FileTree) (source target : Path) : Except FileError FileTree :=
  (t.find source).bind fun place =>
    (t.read source).bind fun content =>
      (t.write target content).map fun t => t.remove place

end FileTree

end AuthorWatch
