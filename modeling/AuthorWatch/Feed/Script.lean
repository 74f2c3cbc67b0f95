import AuthorWatch.Feed.Client

/-! Scripts of what the network does, attempt by attempt, and the signals that a client gets
from them. When a script is over, the client is told to stop while it waits. -/

namespace AuthorWatch

/-- A connection: what is delivered, and how it ends. -/
structure Stream where
  /-- Why the subscription cannot be sent, if it cannot. -/
  sendFault : Option FeedFault
  messages : List Message
  ending : Option FeedFault
  deriving DecidableEq

/-- The outcome of an attempt to connect. -/
inductive Attempt where
  | failed (fault : FeedFault)
  | connected (s : Stream)
  deriving DecidableEq

/-- Who asks for the events. -/
structure Consumer where
  /-- Events until the client is told to stop; zero if it is not. -/
  due : Nat
  /-- Whether the client was told. -/
  told : Bool
  deriving DecidableEq

namespace Consumer

/-- One that never tells the client to stop. -/
def patient : Consumer := ⟨0, false⟩

/-- Asks for an event, and tells the client to stop if it was the one due. -/
def take (c : Consumer) : List Signal × Consumer :=
  if c.due = 1 then ([.taken, .stop], ⟨0, true⟩) else ([.taken], { c with due := c.due - 1 })

/-- Asks for all events of a frame. -/
def takeAll (c : Consumer) : Nat → List Signal × Consumer
  | 0 => ([], c)
  | n + 1 =>
    let (here, c) := c.take
    let (later, c) := c.takeAll n
    (here ++ later, c)

end Consumer

namespace Stream

/-- The messages and the end of a connection. A closed one delivers no more messages; its
own ending still shows if all were delivered before. -/
def deliveries (ending : Option FeedFault) (c : Consumer) : List Message → List Signal × Consumer
  | [] => ([.ended ending], c)
  | m :: rest =>
    if c.told then ([.ended none], c)
    else
      let (takes, c) := c.takeAll (Frame.ofMessage m).events.length
      let (later, c) := deliveries ending c rest
      (.message m :: takes ++ later, c)

def signals (s : Stream) (c : Consumer) : List Signal × Consumer :=
  match s.sendFault with
  | some fault => ([.notSubscribed fault], c)
  | none =>
    let (later, c) := deliveries s.ending c s.messages
    (.subscribed :: later, c)

end Stream

namespace Attempt

def signals (a : Attempt) (c : Consumer) : List Signal × Consumer :=
  match a with
  | failed fault => ([.notConnected fault], c)
  | connected s =>
    let (later, c) := s.signals c
    (.connected :: later, c)

/-- What an attempt beyond the script comes to. -/
def beyondScript : Attempt := .failed (.network "end of script")

/-- Whether a signal is the user's interruption. -/
def isInterruption : Signal → Bool
  | .notConnected .interrupted | .notSubscribed .interrupted | .ended (some .interrupted) => true
  | _ => false

end Attempt

/-- The signals of a script. -/
def Script.signals (c : Consumer) : List Attempt → List Signal
  | [] => (Attempt.beyondScript.signals c).1 ++ [.stop, .delayPassed]
  | a :: rest =>
    let (here, c) := a.signals c
    if c.told || here.any Attempt.isInterruption then here
    else if rest.isEmpty then here ++ [.stop, .delayPassed]
    else here ++ .delayPassed :: signals c rest

end AuthorWatch
