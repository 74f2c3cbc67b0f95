import AuthorWatch.Check.Scalar
import AuthorWatch.Ledger.Retention
import AuthorWatch.Notice
import AuthorWatch.Settings.Address

/-! The settings of the observer, in four sections. Every field has a default, so an
empty document gives settings too; unknown fields are passed over. -/

namespace AuthorWatch

structure FeedSettings where
  address : Text
  /-- The chain to subscribe to. -/
  genesis : Text
  reconnectDelay : Binary64
  openTimeout : Binary64
  pingInterval : Option Binary64
  pingTimeout : Option Binary64
  maxMessageBytes : Nat
  queueSize : Nat
  deriving DecidableEq

structure AggregationSettings where
  window : Window
  policy : Policy
  deriving DecidableEq

structure StorageSettings where
  output : Text
  nodes : Text
  blocks : Text
  deriving DecidableEq

structure LogSettings where
  level : Level
  file : Option Text
  rotation : Text
  deriving DecidableEq

structure Settings where
  feed : FeedSettings
  aggregation : AggregationSettings
  storage : StorageSettings
  logging : LogSettings
  deriving DecidableEq

namespace Check

/-- A section of the settings, which is an object. -/
def inSection {α : Type} (name : Text) (read : List (Text × Json) → Check α) : Json → Check α
  | .object members => read members
  | _ => .failed [⟨[], .notSection name⟩]

/-- A number above zero. -/
def positive (v : Json) : Check Binary64 :=
  (ofExcept v.toNumber).andThen fun x => if x.isPositive then .ok x else .error (.notAbove 0)

/-- A number of zero at least. -/
def nonnegative (v : Json) : Check Binary64 :=
  (ofExcept v.toNumber).andThen fun x => if x.isNonneg then .ok x else .error (.notAtLeast 0)

def positiveOrNull (v : Json) : Check (Option Binary64) :=
  if v.isNull then .passed none else some <$> positive v

def textOrNull (v : Json) : Check (Option Text) := ofExcept (v.orNull Json.toText)

end Check

namespace FeedSettings

def checkAddress (v : Json) : Check Text :=
  (Check.text v).andThen fun t =>
    match Address.split t with
    | .error fault => .error (.badAddress fault.message)
    | .ok a => if a.isFeed then .ok t else .error (.notFeedAddress t)

def checkGenesis (v : Json) : Check Text :=
  (Check.text v).andThen fun t =>
    if !t.encodable then .error .notUnicode else if t.isEmpty then .error .tooShort else .ok t

/-- A number of whole seconds. -/
def seconds (n : Nat) : Binary64 := .ofRatio false n 1

def defaultAddress : Text := "wss://tc0.res.fm/feed"

def defaultGenesis : Text := "0xdbacc01ae41b79388135ccd5d0ebe81eb0905260344256e6f4003bb8e75a91b5"

def check (members : List (Text × Json)) : Check FeedSettings :=
  FeedSettings.mk
    <$> .optional defaultAddress checkAddress "telemetry_url" members
    <*> .optional defaultGenesis checkGenesis "genesis_hash" members
    <*> .optional (seconds 5) .nonnegative "reconnect_delay_sec" members
    <*> .optional (seconds 30) .positive "open_timeout_sec" members
    <*> .optional (some (seconds 25)) .positiveOrNull "ping_interval_sec" members
    <*> .optional (some (seconds 20)) .positiveOrNull "ping_timeout_sec" members
    <*> .optional (16 * 1024 * 1024) (fun v => Int.toNat <$> .integerAbove 0 v) "max_message_bytes"
      members
    <*> .optional 10000 (fun v => Int.toNat <$> .integerAbove 0 v) "queue_size" members

end FeedSettings

namespace AggregationSettings

def checkWindow (v : Json) : Check Window :=
  (Check.integer v).andThen fun n =>
    match Window.ofInt? n with
    | some w => .ok w
    | none => .error (.notAbove 0)

def check (members : List (Text × Json)) : Check AggregationSettings :=
  (fun window minReports maxAge maxLag => ⟨window, ⟨minReports, maxAge, maxLag⟩⟩)
    <$> .optional .standard checkWindow "retention_window" members
    <*> .optional 3 (.integerAbove 0) "min_reports" members
    <*> .optional 3 (.integerAtLeast 0) "max_age_seconds" members
    <*> .optional 1 (.integerAtLeast 0) "max_height_lag" members

end AggregationSettings

namespace StorageSettings

def check (members : List (Text × Json)) : Check StorageSettings :=
  StorageSettings.mk
    <$> .optional "./data/res-likely-authors.csv" .text "output_path" members
    <*> .optional "./data/telemetry-nodes.json" .text "nodes_file" members
    <*> .optional "./data/telemetry-blocks.json" .text "blocks_file" members

end StorageSettings

namespace LogSettings

/-- The capitals of a letter, if they are Latin letters without marks. -/
def capitalsOf (g : Glyph) : Text :=
  match g with
  | .char 'ı' => "I"
  | .char 'ſ' => "S"
  | .char 'ß' => "SS"
  | .char 'ﬀ' => "FF"
  | .char 'ﬁ' => "FI"
  | .char 'ﬂ' => "FL"
  | .char 'ﬃ' => "FFI"
  | .char 'ﬄ' => "FFL"
  | .char 'ﬅ' => "ST"
  | .char 'ﬆ' => "ST"
  | .char c => [.char c.toUpper]
  | g => [g]

/-- A level named in letters of any case. -/
def checkLevel (v : Json) : Check Level :=
  (Check.text v).andThen fun t =>
    match Level.ofName? (t.flatMap capitalsOf) with
    | some level => .ok level
    | none => .error (.notLogLevel t)

def check (members : List (Text × Json)) : Check LogSettings :=
  LogSettings.mk
    <$> .optional .info checkLevel "level" members
    <*> .optional none .textOrNull "file" members
    <*> .optional "10 MB" .text "rotation" members

end LogSettings

namespace Settings

/-- A section that may be left out. -/
def sectionOf {α : Type} (key name : Text) (check : List (Text × Json) → Check α)
    (members : List (Text × Json)) : Check α :=
  ((Json.member? key members).map fun v => (Check.inSection name check v).under key).getD (check [])

def check (members : List (Text × Json)) : Check Settings :=
  Settings.mk
    <$> sectionOf "feed" "FeedSettings" FeedSettings.check members
    <*> sectionOf "aggregation" "AggregationSettings" AggregationSettings.check members
    <*> sectionOf "storage" "StorageSettings" StorageSettings.check members
    <*> sectionOf "logging" "LoggingSettings" LogSettings.check members

end Settings

end AuthorWatch
