import AuthorWatch.Check.Basic
import AuthorWatch.Number.Shortest

/-! What the observer has to say about its work, as causes; their levels and wording
are here and nowhere else. -/

namespace AuthorWatch

inductive Level where
  | trace | debug | info | success | warning | error | critical
  deriving DecidableEq, Inhabited

namespace Level

def rank : Level → Nat
  | trace => 5
  | debug => 10
  | info => 20
  | success => 25
  | warning => 30
  | error => 40
  | critical => 50

def name : Level → Text
  | trace => "TRACE"
  | debug => "DEBUG"
  | info => "INFO"
  | success => "SUCCESS"
  | warning => "WARNING"
  | error => "ERROR"
  | critical => "CRITICAL"

def all : List Level := [trace, debug, info, success, warning, error, critical]

def ofName? (t : Text) : Option Level := all.find? fun level => level.name = t

/-- Whether notices of a level are shown when those from `least` on are. -/
def shows (least level : Level) : Bool := least.rank ≤ level.rank

end Level

/-- The two snapshots of the observer's state. -/
inductive SnapshotKind where
  | nodes | blocks
  deriving DecidableEq

def SnapshotKind.name : SnapshotKind → Text
  | nodes => "nodes"
  | blocks => "blocks"

inductive Notice where
  -- reading frames
  | undecodableFrame
  | unreadableFrame
  | frameNotArray
  | otherAction
  | malformedPayload (action : Int)
  | shortPayload (action : Int)
  -- keeping the ledger
  | importRejected
  | importCounted (height : Int) (hash node : Text) (time : Int) (lowest : Option Int) (count : Int)
      (changed : Bool)
  | recordDue (hash : Text) (count age height tallest : Int)
  | openRecordEvicted (height : Int) (hash : Text)
  | recordsEvicted (count window : Nat)
  | restoredRecordsDropped (count window : Nat)
  | nodeStored (ordinal : Int) (name nodeId : Text)
  | tracking (size openCount : Nat)
  | eventIgnored
  -- snapshots and output
  | snapshotMissing (kind : SnapshotKind) (path : Text)
  | snapshotUnreadable (kind : SnapshotKind)
  | snapshotLoaded (kind : SnapshotKind) (count : Nat) (path : Text)
  | snapshotNotSaved (kind : SnapshotKind)
  | outputOpened (path : Text)
  | outputWritten (count : Nat)
  | outputNotWritten (count : Nat)
  | outputUnusable (path : Text)
  -- the feed
  | feedConnecting (address : Text)
  | feedConnected
  | feedSubscribed (message : Text)
  | messageReceived
  | feedClosed
  | feedTimedOut
  | feedFailed (reason code : Text)
  | feedFailedOddly (reason : Text)
  | feedReconnecting (delay : Binary64)
  | feedStopping
  | feedStopped
  | feedEnded
  -- the observer
  | observerCreated (address genesis : Text)
  | observerStarting
  | eventFailed
  | observerStopped (events rows : Nat)
  | interrupted
  -- settings
  | settingsLoading (path : Text)
  | settingsDefault
  | settingsRefused (complaints : List Complaint)
  | settingsLoaded
  | settingsInvalid (reason : Text)
  deriving DecidableEq

namespace Notice

def level : Notice → Level
  | otherAction | eventIgnored | messageReceived => .trace
  | malformedPayload _ | shortPayload _ | importRejected | importCounted .. | recordDue ..
  | openRecordEvicted .. | recordsEvicted .. | feedSubscribed _ => .debug
  | restoredRecordsDropped .. | nodeStored .. | tracking .. | snapshotMissing .. | snapshotLoaded ..
  | outputOpened _ | outputWritten _ | feedConnecting _ | feedClosed | feedReconnecting _
  | feedStopping | feedStopped | feedEnded | observerCreated .. | observerStarting
  | observerStopped .. | interrupted | settingsLoading _ | settingsDefault => .info
  | feedConnected | settingsLoaded => .success
  | unreadableFrame | frameNotArray | snapshotUnreadable _ | feedTimedOut => .warning
  | undecodableFrame | snapshotNotSaved _ | outputNotWritten _ | outputUnusable _ | feedFailed ..
  | feedFailedOddly _ | eventFailed | settingsRefused _ | settingsInvalid _ => .error

/-- The fields to a value, or the whole if there are none. -/
def locationText (location : List Text) : Text :=
  if location.isEmpty then "root" else Text.join " -> " location

def complaintText (c : Complaint) : Text :=
  "  - Location: " ++ locationText c.location ++ "\n    Message: " ++ c.fault.message ++ "\n"

def orNone : Option Int → Text
  | some n => Decimal.ofInt n
  | none => "None"

def text : Notice → Text
  | undecodableFrame => "Failed to convert binary message"
  | unreadableFrame => "Failed to parse feed message"
  | frameNotArray => "Message is not an array"
  | otherAction => "Ignoring message type"
  | malformedPayload action => "Dropping malformed action " ++ Decimal.ofInt action
  | shortPayload action => "Dropping short action " ++ Decimal.ofInt action
  | importRejected => "Dropping block import"
  | importCounted height hash node time lowest count changed =>
    "Block " ++ Decimal.ofInt height ++ " " ++ hash ++ ": node=" ++ node
      ++ " prop_time=" ++ Decimal.ofInt time ++ " lowest=" ++ orNone lowest
      ++ " reports=" ++ Decimal.ofInt count ++ " changed=" ++ (if changed then "True" else "False")
  | recordDue hash count age height tallest =>
    "Block " ++ hash ++ " ready for output: report_count=" ++ Decimal.ofInt count
      ++ ", age=" ++ Decimal.ofInt age ++ ", block_num=" ++ Decimal.ofInt height
      ++ ", max_block=" ++ Decimal.ofInt tallest
  | openRecordEvicted height hash => "Evicting open block " ++ Decimal.ofInt height ++ " " ++ hash
  | recordsEvicted count window =>
    "Evicted " ++ Decimal.ofNat count ++ " blocks beyond retention window " ++ Decimal.ofNat window
  | restoredRecordsDropped count window =>
    "Dropped " ++ Decimal.ofNat count ++ " restored blocks beyond retention window "
      ++ Decimal.ofNat window
  | nodeStored ordinal name nodeId =>
    "Storing node: idx=" ++ Decimal.ofInt ordinal ++ ", name=" ++ name ++ ", id=" ++ nodeId
  | tracking size openCount =>
    "Tracking " ++ Decimal.ofNat size ++ " blocks, " ++ Decimal.ofNat openCount ++ " outputs ready"
  | eventIgnored => "Ignoring event"
  | snapshotMissing kind path =>
    "No " ++ kind.name ++ " snapshot at " ++ path ++ ", starting empty"
  | snapshotUnreadable kind => "Ignoring unreadable " ++ kind.name ++ " snapshot"
  | snapshotLoaded kind count path =>
    "Loaded " ++ Decimal.ofNat count ++ " " ++ kind.name ++ " from " ++ path
  | snapshotNotSaved kind => "Failed to save " ++ kind.name ++ " snapshot"
  | outputOpened path => "Initializing CSV writer at " ++ path
  | outputWritten count => "Writing " ++ Decimal.ofNat count ++ " records to CSV"
  | outputNotWritten count => "Failed to write " ++ Decimal.ofNat count ++ " rows"
  | outputUnusable path => "Cannot prepare output file " ++ path
  | feedConnecting address => "Attempting WebSocket connection to: " ++ address
  | feedConnected => "WebSocket connection established!"
  | feedSubscribed message => "Subscription message sent: " ++ message
  | messageReceived => "Received line"
  | feedClosed => "WebSocket closed"
  | feedTimedOut => "WebSocket connection attempt timed out."
  | feedFailed reason code => "WebSocket error: " ++ reason ++ " (Code: " ++ code ++ ")"
  | feedFailedOddly reason => "An unexpected error occurred in the telemetry client: " ++ reason
  | feedReconnecting delay =>
    "Connection lost or error occurred. Reconnecting in " ++ delay.toBriefText ++ " seconds..."
  | feedStopping => "Stopping telemetry client..."
  | feedStopped => "Telemetry client stopped."
  | feedEnded => "Feed producer ended."
  | observerCreated address genesis =>
    "Observer created for " ++ address ++ " (genesis " ++ genesis ++ "), starting run loop..."
  | observerStarting => "Starting telemetry monitoring..."
  | eventFailed => "Failed to process event"
  | observerStopped events rows =>
    "Observer stopped. events=" ++ Decimal.ofNat events ++ " rows=" ++ Decimal.ofNat rows
  | interrupted => "Shutdown requested by user (Ctrl+C)."
  | settingsLoading path => "Loading settings from '" ++ path ++ "'..."
  | settingsDefault => "No settings file given, using defaults."
  | settingsRefused complaints =>
    "Configuration validation failed with " ++ Decimal.ofNat complaints.length ++ " error(s):\n"
      ++ complaints.flatMap complaintText
  | settingsLoaded => "Settings loaded and validated successfully."
  | settingsInvalid reason => "Invalid configuration: " ++ reason

end Notice

end AuthorWatch
