import AuthorWatch.Program
import Std.Time.DateTime.Timestamp

/-! The command. The frames of the feed come as lines on standard input, each handled when
it arrives, and the end of the input ends the feed. Files are read before the start and
written after each frame. -/

namespace AuthorWatch.Command

/-- A text as a string; a surrogate without its partner shows as the replacement character. -/
def shownText (t : Text) : String := String.ofList (t.map fun g => g.char?.getD '\uFFFD')

/-- A notice with its level in front. -/
def lineOf (n : Notice) : String :=
  let level := shownText n.level.name
  level ++ "".pushn ' ' (8 - level.length) ++ " | " ++ shownText n.text

def showNotices (notices : List Notice) : IO Unit := do
  let output ← IO.getStderr
  for n in notices do output.putStrLn (lineOf n)

/-- Where notices go while the feed is watched. -/
structure Console where
  least : Level
  /-- The name of the log file, which gets the notices of level `debug` and above. -/
  log : Option String

def Console.say (c : Console) (notices : List Notice) : IO Unit := do
  showNotices (Program.shownFrom c.least notices)
  if let some name := c.log then
    IO.FS.withFile name .append fun file =>
      for n in Program.shownFrom .debug notices do file.putStrLn (lineOf n)

/-! ### Files -/

/-- The place of the working directory. -/
def workPlace : IO Place := do
  return (Path.ofText (.ofString (← IO.currentDir).toString)).segments

/-- The name of a place on the disk. -/
def nameOf (place : Place) : String := "/" ++ shownText (Text.join "/" place)

/-- What stands at a place on the disk. -/
def entryOf (place : Place) : IO (Option Entry) := do
  let name := (← IO.currentDir) / nameOf place
  if ← name.isDir then return some .directory
  if ← name.pathExists then return some (.file (← IO.FS.readBinFile name).toList)
  return none

/-- Adds what stands at the places that a path passes. -/
def loadPath (t : FileTree) (path : Path) : IO FileTree := do
  let mut t := t
  for here in path.way t.start do
    if let some entry ← entryOf here then t := t.set here entry
  return t

def loadPaths (t : FileTree) (paths : List Path) : IO FileTree := paths.foldlM loadPath t

/-- Writes to the disk what differs between two trees. -/
def saveChanges (before after : FileTree) : IO Unit := do
  for (place, entry) in after.entries do
    if before.entryAt? place ≠ some entry then
      match entry with
      | .directory => IO.FS.createDirAll (nameOf place)
      | .file content => IO.FS.writeBinFile (nameOf place) ⟨content.toArray⟩
  for (place, _) in before.entries do
    if (after.entryAt? place).isNone then IO.FS.removeFile (nameOf place)

/-- The files that settings name, with the drafts of the snapshots. -/
def storedPaths (files : FileTree) (s : Settings) : List Path :=
  let snapshots : List Path := [.ofText s.storage.nodes, .ofText s.storage.blocks]
  let drafts := snapshots.filterMap fun path => path.sibling? Snapshot.draftEnding
  snapshots ++ drafts ++ [.ofText s.storage.output] ++ (Program.logPath? files s.logging).toList

/-! ### The environment -/

/-- The variables of the environment, in their order. -/
def environment : IO (List (Text × Text)) := do
  let bytes ← IO.FS.readBinFile "/proc/self/environ"
  let entries := (Utf8.decode? bytes.toList).getD []
  return (entries.splitOn (.char '\x00')).filterMap fun entry =>
    match entry.dropWhile (· ≠ .char '=') with
    | _ :: value => some (entry.takeWhile (· ≠ .char '='), value)
    | [] => none

/-- Seconds since the epoch. -/
def now : IO Int := do return (← Std.Time.Timestamp.now).toSecondsSinceUnixEpoch.toInt

/-! ### The feed -/

structure Live where
  client : Client
  observer : Observer
  console : Console

namespace Live

def tell (l : Live) (s : Signal) : IO Live := do
  let (client, occurrences) := l.client.step s
  let (observer, notices) := l.observer.reactAll occurrences
  l.console.say notices
  return { l with client, observer }

/-- Applies what is queued, at the time of the clock. -/
def settle (l : Live) : IO Live := do
  let before := l.observer.files
  let (observer, notices) := { l.observer with clock := [some (← now)] }.drain
  l.console.say notices
  saveChanges before observer.files
  return { l with observer }

/-- Asks for the events of a frame. -/
partial def takeAll (l : Live) : IO Live := do
  match l.client.phase with
  | .delivering _ => takeAll (← l.tell .taken)
  | _ => return l

/-- Handles lines up to the end of the input. -/
partial def listen (l : Live) (input : IO.FS.Stream) : IO Live := do
  let line ← input.getLine
  if line.isEmpty then return l
  let message := Message.text (.ofString (line.trimAsciiEnd.toString))
  listen (← (← takeAll (← l.tell (.message message))).settle) input

end Live

/-- Watches the feed on standard input. -/
def watch (r : Program.Ready) : IO Unit := do
  let (client, occurrences) := Client.start r.settings.feed
  let observer := Observer.fresh r.recorder r.files [] r.settings.feed.queueSize
  let log := (Program.logPath? r.files r.settings.logging).map fun path => shownText path.toText
  let console : Console := ⟨r.settings.logging.level, log⟩
  console.say (.observerStarting :: occurrences.filterMap Occurrence.notice?)
  let mut l : Live := ⟨client, observer, console⟩
  for s in [Signal.connected, .subscribed] do l ← l.tell s
  l ← l.listen (← IO.getStdin)
  for s in [Signal.ended none, .stop, .delayPassed] do l ← l.tell s
  console.say
    [.feedEnded, .feedStopping, .observerStopped l.observer.processed l.observer.emitted]

/-- Says why the program ends, and gives its exit code. -/
def finish : Program.Ending → IO UInt32
  | .commandLine s => do
    (← IO.getStdout).putStr (shownText s.output)
    (← IO.getStderr).putStr (shownText s.errorOutput)
    return s.exitCode.toUInt32
  | .status code => return code.toUInt32
  | .settings _ => do
    (← IO.getStderr).putStrLn "The settings cannot be read."
    return 1
  | .logFile path _ => do
    (← IO.getStderr).putStrLn ("Cannot open log file " ++ shownText path.toText)
    return 1

def runWith (given : CommandLine.Given) : IO UInt32 := do
  let environment ← environment
  let settingsFile := ((given.get? .config).filter (!·.isEmpty)).getD Program.standardPath
  let files ← loadPaths ⟨[], ← workPlace⟩ [.ofText settingsFile]
  let files ←
    match (Settings.load (Program.sources files environment given)).1 with
    | .ok s => loadPaths files (storedPaths files s)
    | .error _ => pure files
  match Program.prepare files environment given with
  | .error r =>
    showNotices r.shown
    saveChanges files r.files
    finish r.ending
  | .ok r =>
    showNotices r.shown
    saveChanges files r.files
    watch r
    return 0

/-- The whole command, from its arguments to its exit code. -/
def run (arguments : List Text) : IO UInt32 := do
  match CommandLine.parse arguments with
  | .error stop => finish (.commandLine stop)
  | .ok given => runWith given

end AuthorWatch.Command

def main (arguments : List String) : IO UInt32 :=
  AuthorWatch.Command.run (arguments.map AuthorWatch.Text.ofString)
