import AuthorWatch.Feed.Frame
import AuthorWatch.Settings.Basic

/-! The client of the feed. Signals from outside take it from state to state, and each step
says what occurs on the way. A connection that is lost or cannot be made is followed by a
fixed delay and another attempt; only a request to stop ends that. The request is heeded
where a connection ends or a delay is over, and closes the connection that is open. -/

namespace AuthorWatch

/-- Why a connection cannot be made, or breaks. -/
inductive FeedFault where
  | network (reason : Text)
  /-- The other side went away without a farewell. -/
  | abandoned
  | timedOut
  | unforeseen (reason : Text)
  /-- The user ends the program. -/
  | interrupted
  deriving DecidableEq

/-- The notice about a fault; an interruption has none. -/
def FeedFault.notice? : FeedFault → Option Notice
  | network reason => some (.feedFailed reason "N/A")
  | abandoned => some (.feedFailed "no close frame received or sent" "1006")
  | timedOut => some .feedTimedOut
  | unforeseen reason => some (.feedFailedOddly reason)
  | interrupted => none

/-- What the client learns from outside. -/
inductive Signal where
  | connected
  | notConnected (fault : FeedFault)
  | subscribed
  | notSubscribed (fault : FeedFault)
  | message (m : Message)
  /-- The next event of a frame is asked for. -/
  | taken
  /-- The connection is over, perhaps by a fault. -/
  | ended (fault : Option FeedFault)
  | delayPassed
  | stop
  deriving DecidableEq

/-- What the client does, as seen from outside. -/
inductive Occurrence where
  | noticed (n : Notice)
  /-- A connection is tried, at the address and with the limits of the settings. -/
  | attempted (settings : FeedSettings)
  | sent (t : Text)
  | received (m : Message)
  | yielded (e : Event)
  | waited (seconds : Binary64)
  | closed
  deriving DecidableEq

namespace Client

inductive Phase where
  | connecting
  | subscribing
  | listening
  /-- A frame has events that are not asked for yet. -/
  | delivering (events : List Event)
  | waiting
  | stopped
  | interrupted
  deriving DecidableEq

/-- Whether a connection is open. -/
def Phase.isOpen : Phase → Bool
  | subscribing | listening | delivering _ => true
  | connecting | waiting | stopped | interrupted => false

end Client

structure Client where
  settings : FeedSettings
  running : Bool
  phase : Client.Phase
  deriving DecidableEq

namespace Client

/-- The message that asks for one chain. -/
def subscription (s : FeedSettings) : Text := "subscribe:" ++ s.genesis

/-- What occurs with each attempt to connect. -/
def attempt (s : FeedSettings) : List Occurrence :=
  [.attempted s, .noticed (.feedConnecting s.address)]

/-- A client that tries to connect. -/
def start (s : FeedSettings) : Client × List Occurrence := (⟨s, true, .connecting⟩, attempt s)

/-- Without a connection the client waits for the next attempt, or ends if it was told to. -/
def lost (c : Client) (notice : Notice) : Client × List Occurrence :=
  if c.running then
    let delay := c.settings.reconnectDelay
    ({ c with phase := .waiting },
      [.noticed notice, .noticed (.feedReconnecting delay), .waited delay])
  else ({ c with phase := .stopped }, [.noticed notice, .noticed .feedStopped])

def failed (c : Client) (fault : FeedFault) : Client × List Occurrence :=
  match fault.notice? with
  | some notice => c.lost notice
  | none => ({ c with phase := .interrupted }, [])

/-- The request to stop. -/
def stop (c : Client) : Client × List Occurrence :=
  ({ c with running := false },
    .noticed .feedStopping :: if c.phase.isOpen then [.closed] else [])

/-- The phase with the events of a frame still to be asked for. -/
def withEvents : List Event → Phase
  | [] => .listening
  | events => .delivering events

/-- A frame is read as a whole before its first event is handed out. -/
def receive (c : Client) (m : Message) : Client × List Occurrence :=
  let frame := Frame.ofMessage m
  ({ c with phase := withEvents frame.events },
    .received m :: .noticed .messageReceived :: frame.notices.map .noticed)

/-- One signal. One that does not fit the phase changes nothing. -/
def step (c : Client) (s : Signal) : Client × List Occurrence :=
  match s, c.phase with
  | .stop, _ => c.stop
  | .connected, .connecting =>
    ({ c with phase := .subscribing }, [.noticed .feedConnected, .sent (subscription c.settings)])
  | .notConnected fault, .connecting => c.failed fault
  | .subscribed, .subscribing =>
    ({ c with phase := .listening }, [.noticed (.feedSubscribed (subscription c.settings))])
  | .notSubscribed fault, .subscribing => c.failed fault
  | .message m, .listening => c.receive m
  | .taken, .delivering (e :: rest) => ({ c with phase := withEvents rest }, [.yielded e])
  | .ended none, .listening => c.lost .feedClosed
  | .ended (some fault), .listening => c.failed fault
  | .delayPassed, .waiting =>
    if c.running then ({ c with phase := .connecting }, attempt c.settings)
    else ({ c with phase := .stopped }, [.noticed .feedStopped])
  | _, _ => (c, [])

/-- Many signals, one after another. -/
def steps (c : Client) : List Signal → Client × List Occurrence
  | [] => (c, [])
  | s :: rest =>
    let (c, here) := c.step s
    let (c, later) := c.steps rest
    (c, here ++ later)

/-- A client from its first attempt on. -/
def run (settings : FeedSettings) (signals : List Signal) : Client × List Occurrence :=
  let (c, first) := start settings
  let (c, later) := c.steps signals
  (c, first ++ later)

end Client

namespace Occurrence

def notice? : Occurrence → Option Notice
  | noticed n => some n
  | _ => none

def event? : Occurrence → Option Event
  | yielded e => some e
  | _ => none

def sent? : Occurrence → Option Text
  | sent t => some t
  | _ => none

def waited? : Occurrence → Option Binary64
  | waited seconds => some seconds
  | _ => none

def attempted? : Occurrence → Option FeedSettings
  | attempted settings => some settings
  | _ => none

def isReceived : Occurrence → Bool
  | received _ => true
  | _ => false

end Occurrence

end AuthorWatch
