import AuthorWatch.Feed.Client
import AuthorWatch.Recorder

/-! The observer: a client puts events into a queue, and a recorder applies them one at a
time, in the order in which they came. The queue is worked off whenever the client waits,
and before an event that finds it full. -/

namespace AuthorWatch

structure Observer where
  recorder : Recorder
  files : FileTree
  /-- The times that imports are handled at; the last one stays, and a time may be unknown. -/
  clock : List (Option Int)
  /-- How many events the queue holds. -/
  capacity : Nat
  queue : List Event
  /-- Events that were applied or failed. -/
  processed : Nat
  /-- Rows that events brought. -/
  emitted : Nat

namespace Observer

/-- An observer that has seen nothing. -/
def fresh (recorder : Recorder) (files : FileTree) (clock : List (Option Int)) (capacity : Nat) :
    Observer := ⟨recorder, files, clock, capacity, [], 0, 0⟩

/-- The time now, and the clock after it was read. -/
def readClock : List (Option Int) → Option Int × List (Option Int)
  | [] => (none, [])
  | [t] => (t, [t])
  | t :: rest => (t, rest)

/-- The time of an event. An announcement needs none. -/
def timeOf (o : Observer) : Event → Option Int × List (Option Int)
  | .announce _ => (some 0, o.clock)
  | .blockImport _ => readClock o.clock

/-- Applies an event. One that fails is counted like any other, and is noted. -/
def apply (o : Observer) (e : Event) : Observer × List Notice :=
  let (now, clock) := o.timeOf e
  let o := { o with clock, processed := o.processed + 1 }
  match now with
  | none => (o, [.eventFailed])
  | some now =>
    let outcome := o.recorder.process o.files (.event e) now
    let o := { o with recorder := outcome.recorder, files := outcome.files }
    match outcome.rows with
    | .ok rows => ({ o with emitted := o.emitted + rows.length }, outcome.notices)
    | .error _ => (o, outcome.notices ++ [.eventFailed])

/-- Applies events in order. -/
def applyAll (o : Observer) : List Event → Observer × List Notice
  | [] => (o, [])
  | e :: rest =>
    let (o, here) := o.apply e
    let (o, later) := o.applyAll rest
    (o, here ++ later)

/-- Applies all that is queued. -/
def drain (o : Observer) : Observer × List Notice := { o with queue := [] }.applyAll o.queue

def enqueue (o : Observer) (e : Event) : Observer := { o with queue := o.queue ++ [e] }

/-- Queues an event, after the queue was worked off if it is full. -/
def put (o : Observer) (e : Event) : Observer × List Notice :=
  if o.queue.length < o.capacity then (o.enqueue e, [])
  else
    let (o, notices) := o.drain
    (o.enqueue e, notices)

def react (o : Observer) : Occurrence → Observer × List Notice
  | .noticed n => (o, [n])
  | .yielded e => o.put e
  | .waited _ => o.drain
  | _ => (o, [])

def reactAll (o : Observer) : List Occurrence → Observer × List Notice
  | [] => (o, [])
  | occurrence :: rest =>
    let (o, here) := o.react occurrence
    let (o, later) := o.reactAll rest
    (o, here ++ later)

/-- What an observer and its client come to. -/
structure Watch where
  observer : Observer
  occurrences : List Occurrence
  notices : List Notice
  interrupted : Bool

/-- Watches the feed to its end, and applies what is queued then. After an interruption the
queue is left alone. -/
def watch (o : Observer) (settings : FeedSettings) (signals : List Signal) : Watch :=
  let (client, occurrences) := Client.run settings signals
  let (o, notices) := o.reactAll occurrences
  let interrupted := decide (client.phase = .interrupted)
  let (o, rest) :=
    if interrupted then (o, [])
    else
      let (o, rest) := o.drain
      (o, .feedEnded :: rest)
  ⟨o, occurrences,
    .observerStarting :: notices ++ rest ++ [.feedStopping, .observerStopped o.processed o.emitted],
    interrupted⟩

end Observer

end AuthorWatch
