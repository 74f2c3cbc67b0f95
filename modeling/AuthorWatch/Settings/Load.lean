import AuthorWatch.Files.Tree
import AuthorWatch.Settings.Basic
import AuthorWatch.Settings.Environment
import AuthorWatch.Settings.Graph

/-! Where settings come from: a file, over it the variables of the environment, and over
these what is given besides. The whole is checked once, at the end. -/

namespace AuthorWatch

open Environment (EnvironmentError)

/-- Why there are no settings. -/
inductive SettingsError where
  /-- No file has the path. -/
  | absent (path : Path)
  /-- The file is not encoded as text. -/
  | undecodable
  | document (path : Path) (e : YamlError)
  /-- The document is no mapping. -/
  | noMapping (path : Path)
  | environment (e : EnvironmentError)
  /-- Mappings lie over each other too far down. -/
  | tooDeep
  /-- A setting did not pass its check. -/
  | refused
  /-- A setting did not pass its check, and cannot be shown in the complaint about it. -/
  | unshowable

namespace SettingsError

/-- What is said about a configuration that cannot be used. Other errors come from below,
and have words of their own. -/
def reason? : SettingsError → Option Text
  | absent path => some ("Configuration file not found at: " ++ path.toText)
  | document path .malformed => some ("Error parsing YAML file at " ++ path.toText)
  | noMapping path =>
    some ("YAML file '" ++ path.toText ++ "' must contain a mapping at the top level.")
  | refused => some "Failed to validate settings."
  | undecodable | document .. | environment _ | tooDeep | unshowable => none

end SettingsError

namespace Settings

/-- The mapping of a document, with its label. A document without a value has no members. -/
def mappingOfText (path : Path) (t : Text) :
    Except SettingsError (Nat × List (Text × Yaml.Value)) :=
  match Yaml.read t with
  | .error e => .error (.document path e)
  | .ok (.plain .null) => .ok (0, [])
  | .ok (.mapping label members) => .ok (label, members)
  | .ok _ => .error (.noMapping path)

/-- The mapping of a file. It is read as a whole: a byte that is no text counts before a fault of
form, wherever in the file they stand. -/
def mappingOfFile (files : FileTree) (path : Path) :
    Except SettingsError (Nat × List (Text × Yaml.Value)) :=
  match files.read path with
  | .error _ => .error (.absent path)
  | .ok bytes =>
    match Utf8.decode? bytes with
    | none => .error .undecodable
    | some t => mappingOfText path t.withPlainLineEnds

/-- Mappings may lie over each other this far down. -/
def maxDescent : Nat := 960

/-- What the settings may come from. -/
structure Sources where
  files : FileTree
  /-- The path of the settings file as it was given, if one was. -/
  path : Option Text
  environment : List (Text × Text)
  /-- What lies over all else. -/
  given : List (Text × Json)

namespace Sources

/-- The mapping of the settings file. Without a file it has no members. -/
def document (s : Sources) : Except SettingsError (Nat × List (Text × Yaml.Value)) :=
  match s.path with
  | some path => mappingOfFile s.files (.ofText path)
  | none => .ok (0, [])

/-- The members of all sources laid over one another: the sections, and their fields. -/
def members (s : Sources) : Except SettingsError (List (Text × Json)) := do
  let (root, members) ← s.document
  let environment ←
    (Environment.settings Environment.standardLead s.environment).mapError SettingsError.environment
  let document := Graph.add ⟨[]⟩ (.mapping root members)
  match (document.overlay maxDescent root environment).bind (·.overlay maxDescent root s.given) with
  | none => throw .tooDeep
  | some g => return (g.members root).map fun m => (m.1, g.unfold 1 m.2)

def firstNotice (s : Sources) : Notice :=
  match s.path with
  | some path => .settingsLoading path
  | none => .settingsDefault

end Sources

/-- The settings, or why there are none, and what is to be said about it. -/
def load (s : Sources) : Except SettingsError Settings × List Notice :=
  match s.members with
  | .error e => (.error e, [s.firstNotice])
  | .ok members =>
    match check members with
    | .failed complaints =>
      if complaints.all (·.fault.isShowable) then
        (.error .refused, [s.firstNotice, .settingsRefused complaints])
      else (.error .unshowable, [s.firstNotice])
    | .passed settings => (.ok settings, [s.firstNotice, .settingsLoaded])

end Settings

end AuthorWatch
