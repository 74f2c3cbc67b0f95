import AuthorWatch.Json.Basic
import AuthorWatch.Text.Digit
import AuthorWatch.Text.Quoted

/-! The command line. Every option but the one for help takes a value, which follows it
or stands after an equals sign. A long option may be cut short while it stays the only
one that begins so. -/

namespace AuthorWatch.CommandLine

inductive Setting where
  | config | genesisHash | telemetryUrl | outputPath | nodesFile | blocksFile | logLevel | logFile
  deriving DecidableEq

inductive Choice where
  | help
  | setting (s : Setting)
  deriving DecidableEq

/-- The spellings of options, in the order in which they are listed. -/
def spellings : List (Text × Choice) :=
  [("-h", .help), ("--help", .help), ("--config", .setting .config),
    ("--genesis-hash", .setting .genesisHash), ("--telemetry-url", .setting .telemetryUrl),
    ("--output-path", .setting .outputPath), ("--nodes-file", .setting .nodesFile),
    ("--blocks-file", .setting .blocksFile), ("--log-level", .setting .logLevel),
    ("--log-file", .setting .logFile)]

/-- An option with all its spellings. -/
def Choice.name (c : Choice) : Text :=
  Text.join "/" ((spellings.filter fun entry => entry.2 = c).map Prod.fst)

/-- Why a command line is refused. -/
inductive Refusal where
  | ambiguous (argument : Text) (candidates : List Text)
  | valueMissing (c : Choice)
  | valueIgnored (c : Choice) (value : Text)
  | unrecognized (arguments : List Text)
  deriving DecidableEq

def Refusal.message : Refusal → Text
  | ambiguous argument candidates =>
    "ambiguous option: " ++ argument ++ " could match " ++ Text.join ", " candidates
  | valueMissing c => "argument " ++ c.name ++ ": expected one argument"
  | valueIgnored c value => "argument " ++ c.name ++ ": ignored explicit argument " ++ value.quoted
  | unrecognized arguments => "unrecognized arguments: " ++ Text.join " " arguments

/-- What an argument is, seen by itself. -/
inductive Word where
  | option (c : Choice) (value : Option Text)
  | unknownOption
  | plain
  deriving DecidableEq

/-- The parts before and after the first equals sign, if there is one. -/
def splitEquals (t : Text) : Text × Option Text :=
  match t.dropWhile (· ≠ .char '=') with
  | [] => (t, none)
  | _ :: value => (t.takeWhile (· ≠ .char '='), some value)

/-- The options that an argument may stand for when it is none by its full spelling. After
one dash, a letter may be followed by its value at once. -/
def candidates (argument : Text) : List (Text × Choice × Option Text) :=
  if argument.startsWith "--" then
    let (lead, value) := splitEquals argument
    (spellings.filter fun entry => entry.1.startsWith lead).map fun (name, c) => (name, c, value)
  else
    spellings.filterMap fun (name, c) =>
      if name = argument.take 2 then some (name, c, some (argument.drop 2))
      else if name.startsWith argument then some (name, c, none)
      else none

/-- A dash and a decimal number, perhaps with a point and digits after it. -/
def isNegativeNumber (argument : Text) : Bool :=
  match argument with
  | .char '-' :: rest =>
    let rest := if rest.getLast? = some (.char '\n') then rest.dropLast else rest
    match rest.splitOn (.char '.') with
    | [whole] => !whole.isEmpty && whole.all Glyph.isDecimal
    | [whole, places] =>
      whole.all Glyph.isDecimal && !places.isEmpty && places.all Glyph.isDecimal
    | _ => false
  | _ => false

def classify (argument : Text) : Except Refusal Word :=
  if !argument.startsWith "-" then .ok .plain
  else
    match Assoc.get? argument spellings with
    | some c => .ok (.option c none)
    | none =>
      if argument.length = 1 then .ok .plain
      else
        let (name, value) := splitEquals argument
        match if value.isSome then Assoc.get? name spellings else none with
        | some c => .ok (.option c value)
        | none =>
          match candidates argument with
          | [] =>
            .ok (if isNegativeNumber argument || .char ' ' ∈ argument then .plain
              else .unknownOption)
          | [(_, c, value)] => .ok (.option c value)
          | several => .error (.ambiguous argument (several.map Prod.fst))

/-- The words of the arguments. Behind two lone dashes, and these included, nothing is
an option. -/
def words : List Text → Except Refusal (List (Text × Option Word))
  | [] => .ok []
  | argument :: rest =>
    if argument = "--" then
      .ok ((argument, none) :: rest.map fun argument => (argument, some .plain))
    else do
      let word ← classify argument
      return (argument, some word) :: (← words rest)

/-- How the reading of a command line ends early. -/
inductive Stop where
  | help
  | refused (r : Refusal)
  deriving DecidableEq

/-- What is given to each setting; the last value counts. -/
abbrev Given := List (Setting × Text)

/-- What was read so far: values, and arguments with no use. -/
structure Reading where
  given : Given
  extras : List Text

/-- Help comes at once. Its letter may be repeated, and takes no other value. -/
def readHelp : Option Text → Stop
  | none => .help
  | some [] => .refused (.valueIgnored .help [])
  | some value =>
    if value.all (· = .char 'h') then .help
    else .refused (.valueIgnored .help (value.dropWhile (· = .char 'h')))

/-- Whether the letters after a dash may be options of their own. -/
def isShort (argument : Text) : Bool := !argument.startsWith "--"

def read (r : Reading) : List (Text × Option Word) → Except Stop Reading
  | [] => .ok r
  | (argument, some (.option .help value)) :: _ =>
    .error (if isShort argument then readHelp value
      else match value with
        | none => .help
        | some value => .refused (.valueIgnored .help value))
  | (_, some (.option (.setting s) (some value))) :: rest =>
    read { r with given := (s, value) :: r.given } rest
  | (_, some (.option (.setting s) none)) :: (value, some .plain) :: rest =>
    read { r with given := (s, value) :: r.given } rest
  | (_, some (.option (.setting s) none)) :: _ => .error (.refused (.valueMissing (.setting s)))
  | (argument, _) :: rest => read { r with extras := r.extras ++ [argument] } rest

def parse (arguments : List Text) : Except Stop Given :=
  match words arguments with
  | .error r => .error (.refused r)
  | .ok ws =>
    match read ⟨[], []⟩ ws with
    | .error stop => .error stop
    | .ok r => if r.extras.isEmpty then .ok r.given else .error (.refused (.unrecognized r.extras))

namespace Given

def get? (g : Given) (s : Setting) : Option Text := Assoc.get? s g

/-- A member for each setting of a section that was given. -/
def sectionMembers (g : Given) (fields : List (Text × Setting)) : List (Text × Json) :=
  fields.filterMap fun (key, s) => (g.get? s).map fun t => (key, .text t)

/-- The sections that have settings on the command line. -/
def sections : List (Text × List (Text × Setting)) :=
  [("feed", [("genesis_hash", .genesisHash), ("telemetry_url", .telemetryUrl)]),
    ("storage", [("output_path", .outputPath), ("nodes_file", .nodesFile),
      ("blocks_file", .blocksFile)]),
    ("logging", [("level", .logLevel), ("file", .logFile)])]

/-- What was given, as settings to lay over others. -/
def toSettings (g : Given) : List (Text × Json) :=
  sections.filterMap fun (name, fields) =>
    match g.sectionMembers fields with
    | [] => none
    | members => some (name, .object members)

end Given

/-! ### Messages -/

def usage : Text :=
  "usage: telemetry-observer [-h] [--config CONFIG] [--genesis-hash GENESIS_HASH]
                          [--telemetry-url TELEMETRY_URL]
                          [--output-path OUTPUT_PATH]
                          [--nodes-file NODES_FILE]
                          [--blocks-file BLOCKS_FILE] [--log-level LOG_LEVEL]
                          [--log-file LOG_FILE]
"

def helpText : Text :=
  usage ++ "
Telemetry Observer - monitor block production and propagation times

options:
  -h, --help            show this help message and exit
  --config CONFIG       YAML settings file (default: ./settings.yaml if
                        present, else built-in defaults + env)
  --genesis-hash GENESIS_HASH
                        Genesis hash of the chain to subscribe to
  --telemetry-url TELEMETRY_URL
                        Telemetry feed websocket URL
  --output-path OUTPUT_PATH
                        CSV file receiving likely-author rows
  --nodes-file NODES_FILE
                        Node registry JSON snapshot
  --blocks-file BLOCKS_FILE
                        Block ledger JSON snapshot
  --log-level LOG_LEVEL
                        DEBUG, INFO, WARNING, ...
  --log-file LOG_FILE   Also log to this file (rotated)
"

namespace Stop

def exitCode : Stop → Nat
  | help => 0
  | refused _ => 2

def output : Stop → Text
  | help => helpText
  | refused _ => []

def errorOutput : Stop → Text
  | help => []
  | refused r => usage ++ "telemetry-observer: error: " ++ r.message ++ "\n"

end Stop

end AuthorWatch.CommandLine
