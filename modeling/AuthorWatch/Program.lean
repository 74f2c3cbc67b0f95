import AuthorWatch.CommandLine
import AuthorWatch.Feed.Script
import AuthorWatch.Observer
import AuthorWatch.Settings.Load

/-! The program as a whole: it reads the command line and the settings, restores its state,
and watches the feed. Settings or an output file that cannot be used end it with status 1. -/

namespace AuthorWatch.Program

/-- How the program ends. -/
inductive Ending where
  /-- The command line asked for nothing more, or was refused. -/
  | commandLine (s : CommandLine.Stop)
  | status (code : Nat)
  /-- The settings cannot be read, and not because of what the user wrote in them. -/
  | settings (e : SettingsError)
  /-- The log file cannot be opened. -/
  | logFile (path : Path) (e : FileError)

/-- What the program leaves. -/
structure Run where
  ending : Ending
  files : FileTree
  /-- The notices of a level that is shown. -/
  shown : List Notice
  /-- What occurred on the feed, if it was watched. -/
  feed : Option (List Occurrence)

/-- A program that is ready to watch the feed. -/
structure Ready where
  settings : Settings
  files : FileTree
  recorder : Recorder
  shown : List Notice

def shownFrom (least : Level) (notices : List Notice) : List Notice :=
  notices.filter fun n => least.shows n.level

/-! ### Getting ready -/

/-- The settings file that is read when none is named, if it is there. -/
def standardPath : Text := "settings.yaml"

def settingsPath (files : FileTree) (given : CommandLine.Given) : Option Text :=
  match given.get? .config with
  | some (g :: rest) => some (g :: rest)
  | _ => if files.isFile (.ofText standardPath) then some standardPath else none

/-- Where the settings come from, the command line lying over all else. -/
def sources (files : FileTree) (environment : List (Text × Text)) (given : CommandLine.Given) :
    Settings.Sources := ⟨files, settingsPath files given, environment, given.toSettings⟩

/-- The path of the log file, if one is set. It goes down from the root: ways up are taken out
of it by its text alone. -/
def logPath? (files : FileTree) (s : LogSettings) : Option Path :=
  match s.file with
  | none | some [] => none
  | some file => some ⟨true, files.place (.ofText file)⟩

/-- Opens the log file, if one is set. -/
def openLog (files : FileTree) (s : LogSettings) : FileTree × Except (Path × FileError) Unit :=
  match logPath? files s with
  | none => (files, .ok ())
  | some path =>
    match files.makeDirectory path.parent with
    | (files, .error e) => (files, .error (path, e))
    | (files, .ok ()) =>
      match files.append path [] with
      | .error e => (files, .error (path, e))
      | .ok files => (files, .ok ())

def planOf (s : Settings) : Recorder.Plan :=
  ⟨.ofText s.storage.nodes, .ofText s.storage.blocks, .ofText s.storage.output,
    s.aggregation.policy, s.aggregation.window⟩

/-- Opens the recorder of settings that passed. -/
def openRecorder (s : Settings) (files : FileTree) (earlier : List Notice) : Except Run Ready :=
  let shown (notices : List Notice) := earlier ++ shownFrom s.logging.level notices
  let plan := planOf s
  let opened := Recorder.open plan files
  match opened.recorder with
  | .error _ =>
    let notices := opened.notices ++ [.outputUnusable plan.output.toText]
    .error ⟨.status 1, opened.files, shown notices, none⟩
  | .ok recorder =>
    let notices := opened.notices ++ [.observerCreated s.feed.address s.feed.genesis]
    .ok ⟨s, opened.files, recorder, shown notices⟩

/-- Reads the settings and opens all files. Until the settings are known, notices are shown
from the level `info` on. -/
def prepare (files : FileTree) (environment : List (Text × Text)) (given : CommandLine.Given) :
    Except Run Ready :=
  let (settings, notices) := Settings.load (sources files environment given)
  match settings with
  | .error e =>
    match e.reason? with
    | some reason =>
      .error ⟨.status 1, files, shownFrom .info (notices ++ [.settingsInvalid reason]), none⟩
    | none => .error ⟨.settings e, files, shownFrom .info notices, none⟩
  | .ok s =>
    let earlier := shownFrom .info notices
    match openLog files s.logging with
    | (files, .error (path, e)) => .error ⟨.logFile path e, files, earlier, none⟩
    | (files, .ok ()) => openRecorder s files earlier

/-! ### Running -/

/-- What the program meets. -/
structure World where
  files : FileTree
  environment : List (Text × Text)
  clock : List (Option Int)
  script : List Attempt

/-- Watches the feed to its end. -/
def watch (r : Ready) (clock : List (Option Int)) (script : List Attempt) : Run :=
  let observer := Observer.fresh r.recorder r.files clock r.settings.feed.queueSize
  let watched := observer.watch r.settings.feed (Script.signals .patient script)
  let notices := watched.notices ++ (if watched.interrupted then [.interrupted] else [])
  ⟨.status 0, watched.observer.files, r.shown ++ shownFrom r.settings.logging.level notices,
    some watched.occurrences⟩

def run (w : World) (arguments : List Text) : Run :=
  match CommandLine.parse arguments with
  | .error stop => ⟨.commandLine stop, w.files, [], none⟩
  | .ok given =>
    match prepare w.files w.environment given with
    | .error r => r
    | .ok r => watch r w.clock w.script

end AuthorWatch.Program
