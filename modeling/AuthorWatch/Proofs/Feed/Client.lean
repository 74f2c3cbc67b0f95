import AuthorWatch.Feed.Script
import Mathlib.Tactic.Common

/-! The client through a script of connections. Each attempt, however it ends, is followed by one
wait; what a connection delivers is read and handed out in order before its end is looked at, so
nothing is lost with a connection that breaks. Only a request to stop ends the client. -/

namespace AuthorWatch

/-! ### What is seen from outside -/

namespace Occurrence

/-- Anything but a notice. -/
def isOutward (o : Occurrence) : Bool := o.notice?.isNone

theorem filter_notices (notices : List Notice) : (notices.map noticed).filter isOutward = [] := by
  rw [List.filter_eq_nil_iff]
  intro o ho
  obtain ⟨n, -, rfl⟩ := List.mem_map.mp ho
  exact Bool.false_ne_true

theorem filterMap_outward {α : Type} {f : Occurrence → Option α} (hf : ∀ n, f (.noticed n) = none)
    (seen : List Occurrence) : (seen.filter isOutward).filterMap f = seen.filterMap f := by
  induction seen with
  | nil => rfl
  | cons o seen ih =>
    cases o with
    | noticed n =>
      rw [List.filterMap_cons_none (hf n), ← ih]
      rfl
    | _ => simp [isOutward, notice?, List.filter_cons, List.filterMap_cons, ih]

theorem countP_outward (seen : List Occurrence) :
    (seen.filter isOutward).countP isReceived = seen.countP isReceived := by
  rw [List.countP_filter]
  refine List.countP_congr fun o _ => ?_
  cases o <;> simp [isOutward, notice?, isReceived]

end Occurrence

/-! ### Scripts -/

/-- A message is read, and its events are handed out. -/
def Message.reading (m : Message) : List Occurrence :=
  .received m :: (Frame.ofMessage m).events.map .yielded

namespace Stream

/-- A message, and all its events asked for. -/
def taking (m : Message) : List Signal :=
  .message m :: List.replicate (Frame.ofMessage m).events.length .taken

theorem takeAll_patient (n : ℕ) :
    Consumer.patient.takeAll n = (List.replicate n .taken, .patient) := by
  induction n with
  | zero => rfl
  | succ n ih =>
    have htake : Consumer.patient.take = ([.taken], .patient) := rfl
    simp only [Consumer.takeAll, htake, ih, List.replicate_succ]
    rfl

theorem deliveries_patient (ending : Option FeedFault) (messages : List Message) :
    deliveries ending .patient messages
      = (messages.flatMap taking ++ [.ended ending], .patient) := by
  induction messages with
  | nil => rfl
  | cons m messages ih =>
    have htold : Consumer.patient.told = false := rfl
    simp only [deliveries, htold, takeAll_patient, ih, taking, List.flatMap_cons]
    simp

end Stream

namespace Attempt

/-- What breaks an attempt, if anything does. -/
def fault? : Attempt → Option FeedFault
  | failed fault => some fault
  | connected s => s.sendFault.or s.ending

/-- The attempt ends by itself or by a fault that the client deals with. -/
def Handled (a : Attempt) : Prop := a.fault? ≠ some .interrupted

instance : DecidablePred Handled := fun a =>
  inferInstanceAs (Decidable (a.fault? ≠ some .interrupted))

/-- The messages that arrive. -/
def delivered : Attempt → List Message
  | failed _ => []
  | connected s => if s.sendFault.isSome then [] else s.messages

/-- What is seen between an attempt and the wait after it: the subscription is sent if there is a
connection, and then every message is read and its events are handed out. -/
def course (settings : FeedSettings) (a : Attempt) : List Occurrence :=
  match a with
  | failed _ => []
  | connected _ => .sent (Client.subscription settings) :: a.delivered.flatMap Message.reading

end Attempt

namespace Script

/-- The attempts, with a wait after each. -/
def trace (settings : FeedSettings) (script : List Attempt) : List Occurrence :=
  script.flatMap fun a =>
    .attempted settings :: a.course settings ++ [.waited settings.reconnectDelay]

/-- The signals up to the attempt that comes after a script. -/
def course (script : List Attempt) : List Signal :=
  script.flatMap fun a => (a.signals .patient).1 ++ [.delayPassed]

end Script

namespace Client

variable {c d e : Client} {xs ys : List Signal} {seen later : List Occurrence}
  {settings : FeedSettings}

/-! ### Signals in a row -/

theorem steps_append (c : Client) (xs ys : List Signal) :
    c.steps (xs ++ ys)
      = (((c.steps xs).1.steps ys).1, (c.steps xs).2 ++ ((c.steps xs).1.steps ys).2) := by
  induction xs generalizing c with
  | nil => rfl
  | cons x xs ih => simp [steps, ih]

/-- The signals take one client to the other, and this is seen from outside. -/
structure Goes (c : Client) (signals : List Signal) (seen : List Occurrence) (d : Client) :
    Prop where
  client : (c.steps signals).1 = d
  outward : (c.steps signals).2.filter Occurrence.isOutward = seen

theorem Goes.append (h : c.Goes xs seen d) (h' : d.Goes ys later e) :
    c.Goes (xs ++ ys) (seen ++ later) e := by
  obtain ⟨rfl, rfl⟩ := h
  obtain ⟨rfl, rfl⟩ := h'
  constructor
  · rw [steps_append]
  · rw [steps_append, List.filter_append]

/-- A client that was not told to stop. -/
def live (settings : FeedSettings) (phase : Phase) : Client := ⟨settings, true, phase⟩

/-- The first attempt is made as every other is, when a wait is over. -/
theorem run_eq (settings : FeedSettings) (signals : List Signal) :
    run settings signals = (live settings .waiting).steps (.delayPassed :: signals) := rfl

/-! ### A connection -/

theorem goes_taken (events : List Event) :
    (live settings (withEvents events)).Goes (List.replicate events.length .taken)
      (events.map .yielded) (live settings .listening) := by
  induction events with
  | nil => exact ⟨rfl, rfl⟩
  | cons event events ih =>
    have hone : (live settings (withEvents (event :: events))).Goes [.taken] [.yielded event]
        (live settings (withEvents events)) := ⟨rfl, rfl⟩
    exact hone.append ih

theorem goes_taking (m : Message) :
    (live settings .listening).Goes (Stream.taking m) m.reading (live settings .listening) := by
  have hone : (live settings .listening).Goes [.message m] [.received m]
      (live settings (withEvents (Frame.ofMessage m).events)) := by
    refine ⟨rfl, ?_⟩
    show List.filter Occurrence.isOutward (.received m :: .noticed .messageReceived ::
      (Frame.ofMessage m).notices.map .noticed ++ []) = [.received m]
    rw [List.append_nil, List.filter_cons_of_pos rfl, List.filter_cons_of_neg Bool.false_ne_true,
      Occurrence.filter_notices]
  exact hone.append (goes_taken _)

theorem goes_messages (messages : List Message) :
    (live settings .listening).Goes (messages.flatMap Stream.taking)
      (messages.flatMap Message.reading) (live settings .listening) := by
  induction messages with
  | nil => exact ⟨rfl, rfl⟩
  | cons m messages ih => exact (goes_taking m).append ih

/-! ### What follows a connection -/

theorem goes_of_lost {phase : Phase} {signal : Signal} {notice : Notice}
    (h : (live settings phase).step signal = (live settings phase).lost notice) :
    (live settings phase).Goes [signal] [.waited settings.reconnectDelay]
      (live settings .waiting) := by
  constructor
  · rw [steps, h]
    rfl
  · rw [steps, h]
    rfl

/-- Every fault but an interruption is a lost connection. -/
theorem exists_failed_eq_lost {fault : FeedFault} (h : fault ≠ .interrupted) (c : Client) :
    ∃ notice, c.failed fault = c.lost notice := by
  cases fault with
  | interrupted => exact absurd rfl h
  | network reason => exact ⟨_, rfl⟩
  | abandoned => exact ⟨_, rfl⟩
  | timedOut => exact ⟨_, rfl⟩
  | unforeseen reason => exact ⟨_, rfl⟩

theorem goes_of_failed {phase : Phase} {signal : Signal} {fault : FeedFault}
    (hfault : fault ≠ .interrupted)
    (h : (live settings phase).step signal = (live settings phase).failed fault) :
    (live settings phase).Goes [signal] [.waited settings.reconnectDelay]
      (live settings .waiting) := by
  obtain ⟨notice, hlost⟩ := exists_failed_eq_lost hfault (live settings phase)
  exact goes_of_lost (h.trans hlost)

theorem goes_ended {ending : Option FeedFault} (h : ending ≠ some .interrupted) :
    (live settings .listening).Goes [.ended ending] [.waited settings.reconnectDelay]
      (live settings .waiting) := by
  cases ending with
  | none => exact goes_of_lost rfl
  | some fault => exact goes_of_failed (fun hfault => h (congrArg some hfault)) rfl

theorem goes_attempted (settings : FeedSettings) :
    (live settings .waiting).Goes [.delayPassed] [.attempted settings]
      (live settings .connecting) := ⟨rfl, rfl⟩

/-- An attempt, from the end of the wait before it to the wait after it. -/
theorem goes_attempt {a : Attempt} (h : a.Handled) :
    (live settings .waiting).Goes (.delayPassed :: (a.signals .patient).1)
      (.attempted settings :: a.course settings ++ [.waited settings.reconnectDelay])
      (live settings .waiting) := by
  refine (goes_attempted settings).append ?_
  cases a with
  | failed fault => exact goes_of_failed (fun hfault => h (congrArg some hfault)) rfl
  | connected s =>
    have hopen : (live settings .connecting).Goes [.connected] [.sent (subscription settings)]
        (live settings .subscribing) := ⟨rfl, rfl⟩
    obtain ⟨sendFault, messages, ending⟩ := s
    cases sendFault with
    | some fault =>
      have hlost : (live settings .subscribing).Goes [.notSubscribed fault]
          [.waited settings.reconnectDelay] (live settings .waiting) :=
        goes_of_failed (fun hfault => h (congrArg some hfault)) rfl
      exact hopen.append hlost
    | none =>
      have hsubscribed : (live settings .subscribing).Goes [.subscribed] []
          (live settings .listening) := ⟨rfl, rfl⟩
      have hending : ending ≠ some .interrupted := h
      have hall := hopen.append
        (hsubscribed.append ((goes_messages messages).append (goes_ended hending)))
      simpa [Attempt.signals, Stream.signals, Stream.deliveries_patient, Attempt.course,
        Attempt.delivered] using hall

theorem goes_script {script : List Attempt} (h : ∀ a ∈ script, a.Handled) :
    (live settings .waiting).Goes (script.flatMap fun a => .delayPassed :: (a.signals .patient).1)
      (Script.trace settings script) (live settings .waiting) := by
  induction script with
  | nil => exact ⟨rfl, rfl⟩
  | cons a script ih =>
    rw [List.forall_mem_cons] at h
    exact (goes_attempt h.1).append (ih h.2)

/-! ### Whole scripts -/

/-- Waits stand between the attempts, and one more before the first or after the last. -/
theorem delayPassed_course (script : List Attempt) :
    .delayPassed :: Script.course script
      = (script.flatMap fun a => .delayPassed :: (a.signals .patient).1) ++ [.delayPassed] := by
  induction script with
  | nil => rfl
  | cons a script ih =>
    rw [Script.course, List.flatMap_cons, List.flatMap_cons, List.append_assoc, List.append_assoc,
      ← ih]
    rfl

theorem not_isInterruption {fault : FeedFault} (h : fault ≠ .interrupted) :
    Attempt.isInterruption (.notConnected fault) = false
      ∧ Attempt.isInterruption (.notSubscribed fault) = false
      ∧ Attempt.isInterruption (.ended (some fault)) = false := by
  cases fault with
  | interrupted => exact absurd rfl h
  | _ => exact ⟨rfl, rfl, rfl⟩

theorem any_isInterruption {a : Attempt} (h : a.Handled) :
    (a.signals .patient).1.any Attempt.isInterruption = false := by
  cases a with
  | failed fault => simp [Attempt.signals, (not_isInterruption fun hf => h (congrArg some hf)).1]
  | connected s =>
    obtain ⟨sendFault, messages, ending⟩ := s
    have hopened : Attempt.isInterruption .connected = false
        ∧ Attempt.isInterruption .subscribed = false := ⟨rfl, rfl⟩
    cases sendFault with
    | some fault =>
      have hfault := (not_isInterruption fun hf => h (congrArg some hf)).2.1
      simp [Attempt.signals, Stream.signals, hopened, hfault]
    | none =>
      have hmessages : (messages.flatMap Stream.taking).any Attempt.isInterruption = false := by
        simp [List.any_flatMap, Stream.taking, Attempt.isInterruption]
      have hending : Attempt.isInterruption (.ended ending) = false := by
        cases ending with
        | none => rfl
        | some fault => exact (not_isInterruption fun hf => h (congrArg some hf)).2.2
      simp [Attempt.signals, Stream.signals, Stream.deliveries_patient, hopened, hmessages, hending]

theorem patient_signals (a : Attempt) : (a.signals .patient).2 = .patient := by
  cases a with
  | failed fault => rfl
  | connected s =>
    obtain ⟨sendFault, messages, ending⟩ := s
    cases sendFault with
    | some fault => rfl
    | none => simp [Attempt.signals, Stream.signals, Stream.deliveries_patient]

theorem signals_cons {a : Attempt} (h : a.Handled) (script : List Attempt) :
    Script.signals .patient (a :: script)
      = (a.signals .patient).1 ++ if script.isEmpty then [.stop, .delayPassed]
        else .delayPassed :: Script.signals .patient script := by
  have hcons : Script.signals .patient (a :: script)
      = if (a.signals .patient).2.told || (a.signals .patient).1.any Attempt.isInterruption then
          (a.signals .patient).1
        else if script.isEmpty then (a.signals .patient).1 ++ [.stop, .delayPassed]
        else (a.signals .patient).1 ++ .delayPassed :: Script.signals (a.signals .patient).2 script :=
    rfl
  have htold : Consumer.patient.told = false := rfl
  rw [hcons, patient_signals, any_isInterruption h, htold, Bool.or_self, if_neg Bool.false_ne_true]
  split
  · rfl
  · rfl

/-- The client is told to stop while it waits after the last attempt. -/
theorem delayPassed_signals {script : List Attempt} (hne : script ≠ [])
    (h : ∀ a ∈ script, a.Handled) :
    .delayPassed :: Script.signals .patient script
      = (script.flatMap fun a => .delayPassed :: (a.signals .patient).1)
        ++ [.stop, .delayPassed] := by
  induction script with
  | nil => exact absurd rfl hne
  | cons a script ih =>
    rw [List.forall_mem_cons] at h
    rw [signals_cons h.1]
    cases script with
    | nil => simp
    | cons b script =>
      rw [List.flatMap_cons, List.append_assoc, ← ih (by simp) h.2]
      rfl

/-! ### Without a request to stop -/

/-- The client goes on. -/
def Live (c : Client) : Prop :=
  c.running = true ∧ c.phase ≠ .stopped ∧ c.phase ≠ .interrupted

theorem live_lost (hc : c.Live) (notice : Notice) : (c.lost notice).1.Live := by
  rw [lost, if_pos hc.1]
  exact ⟨hc.1, nofun, nofun⟩

theorem live_failed (hc : c.Live) {fault : FeedFault} (h : fault ≠ .interrupted) :
    (c.failed fault).1.Live := by
  obtain ⟨notice, hlost⟩ := exists_failed_eq_lost h c
  rw [hlost]
  exact live_lost hc notice

theorem live_withEvents (hc : c.Live) (events : List Event) :
    Live { c with phase := withEvents events } := by
  cases events with
  | nil => exact ⟨hc.1, nofun, nofun⟩
  | cons event events => exact ⟨hc.1, nofun, nofun⟩

theorem live_step {s : Signal} (hc : c.Live) (hstop : s ≠ .stop)
    (hs : Attempt.isInterruption s = false) : (c.step s).1.Live := by
  unfold step
  split
  next => exact absurd rfl hstop
  next => exact ⟨hc.1, nofun, nofun⟩
  next => exact live_failed hc (by rintro rfl; cases hs)
  next => exact ⟨hc.1, nofun, nofun⟩
  next => exact live_failed hc (by rintro rfl; cases hs)
  next => exact live_withEvents hc _
  next => exact live_withEvents hc _
  next => exact live_lost hc _
  next => exact live_failed hc (by rintro rfl; cases hs)
  next =>
    rw [if_pos hc.1]
    exact ⟨hc.1, nofun, nofun⟩
  next => exact hc

theorem live_steps (hc : c.Live) (signals : List Signal)
    (h : ∀ s ∈ signals, s ≠ .stop ∧ Attempt.isInterruption s = false) :
    (c.steps signals).1.Live := by
  induction signals generalizing c with
  | nil => exact hc
  | cons s signals ih =>
    rw [List.forall_mem_cons] at h
    exact ih (live_step hc h.1.1 h.1.2) h.2

end Client

/-! ### What a script amounts to -/

namespace Attempt

variable (settings : FeedSettings) (a : Attempt)

theorem events_course : (a.course settings).filterMap Occurrence.event?
    = a.delivered.flatMap fun m => (Frame.ofMessage m).events := by
  have hreading : ∀ m : Message, m.reading.filterMap Occurrence.event?
      = (Frame.ofMessage m).events := by
    intro m
    have hyielded : Occurrence.event? ∘ Occurrence.yielded = some := rfl
    rw [Message.reading, List.filterMap_cons_none rfl, List.filterMap_map, hyielded,
      List.filterMap_some]
  cases a with
  | failed fault => rfl
  | connected s =>
    rw [course, List.filterMap_cons_none rfl, List.filterMap_flatMap]
    simp only [hreading]

theorem attempts_course : (a.course settings).filterMap Occurrence.attempted? = [] := by
  have hreading : ∀ m : Message, m.reading.filterMap Occurrence.attempted? = [] := by
    intro m
    have hyielded : Occurrence.attempted? ∘ Occurrence.yielded = fun _ => none := rfl
    rw [Message.reading, List.filterMap_cons_none rfl, List.filterMap_map, hyielded]
    simp
  cases a with
  | failed fault => rfl
  | connected s =>
    rw [course, List.filterMap_cons_none rfl, List.filterMap_flatMap]
    simp [hreading]

theorem received_course : (a.course settings).countP Occurrence.isReceived
    = a.delivered.length := by
  have hreading : ∀ m : Message, m.reading.countP Occurrence.isReceived = 1 := by
    intro m
    have hyielded : Occurrence.isReceived ∘ Occurrence.yielded = fun _ => false := rfl
    rw [Message.reading, List.countP_cons_of_pos rfl, List.countP_map, hyielded]
    simp
  cases a with
  | failed fault => rfl
  | connected s =>
    rw [course, List.countP_cons_of_neg Bool.false_ne_true, List.countP_flatMap]
    simp [Function.comp_def, hreading, List.map_const']

end Attempt

namespace Script

variable (settings : FeedSettings) (script : List Attempt)

theorem trace_cons (a : Attempt) : trace settings (a :: script)
    = .attempted settings
      :: (a.course settings ++ .waited settings.reconnectDelay :: trace settings script) := by
  simp [trace]

theorem events_trace : (trace settings script).filterMap Occurrence.event?
    = script.flatMap fun a => a.delivered.flatMap fun m => (Frame.ofMessage m).events := by
  induction script with
  | nil => rfl
  | cons a script ih =>
    rw [trace_cons, List.filterMap_cons_none rfl, List.filterMap_append, a.events_course,
      List.filterMap_cons_none rfl, ih, List.flatMap_cons]

theorem attempts_trace : (trace settings script).filterMap Occurrence.attempted?
    = List.replicate script.length settings := by
  induction script with
  | nil => rfl
  | cons a script ih =>
    have hhead : Occurrence.attempted? (.attempted settings) = some settings := rfl
    rw [trace_cons, List.filterMap_cons_some hhead, List.filterMap_append, a.attempts_course,
      List.filterMap_cons_none rfl, ih]
    rfl

theorem received_trace : (trace settings script).countP Occurrence.isReceived
    = (script.flatMap Attempt.delivered).length := by
  induction script with
  | nil => rfl
  | cons a script ih =>
    rw [trace_cons, List.countP_cons_of_neg Bool.false_ne_true, List.countP_append,
      a.received_course, List.countP_cons_of_neg Bool.false_ne_true, ih, List.flatMap_cons,
      List.length_append]

end Script

namespace Client

/-- The client goes through any attempts, each of them failed, or connected and then broken or
ended in any way but an interruption. What is seen of it, notices apart, is each attempt, the
subscription if there is a connection, then message by message what arrives and all its events,
and one wait of the set delay before the next attempt; whatever comes then finds the client as it
was at first. Told to stop during the last wait, it ends, with as many attempts and messages as
the script has, and with the events of all its messages in their order. It does not end
otherwise: whatever the signals, it goes on until it is told to stop, or interrupted. -/
theorem delivers_whole_feed (settings : FeedSettings) (script : List Attempt)
    (h : ∀ a ∈ script, a.Handled) :
    let whole := run settings (Script.signals .patient script)
    (∀ more,
      (run settings (Script.course script ++ more)).1 = (run settings more).1
      ∧ (run settings (Script.course script ++ more)).2.filter Occurrence.isOutward
        = Script.trace settings script ++ (run settings more).2.filter Occurrence.isOutward)
    ∧ (script ≠ [] →
      whole.1 = ⟨settings, false, .stopped⟩
      ∧ whole.2.filter Occurrence.isOutward = Script.trace settings script
      ∧ whole.2.filterMap Occurrence.event?
        = script.flatMap (fun a => a.delivered.flatMap fun m => (Frame.ofMessage m).events)
      ∧ whole.2.filterMap Occurrence.attempted? = List.replicate script.length settings
      ∧ whole.2.countP Occurrence.isReceived = (script.flatMap Attempt.delivered).length)
    ∧ ∀ signals, (∀ s ∈ signals, s ≠ .stop ∧ Attempt.isInterruption s = false) →
      (run settings signals).1.running = true ∧ (run settings signals).1.phase ≠ .stopped
        ∧ (run settings signals).1.phase ≠ .interrupted := by
  intro whole
  refine ⟨fun more => ?_, fun hne => ?_, fun signals hsignals => ?_⟩
  · have hmore : (live settings .waiting).Goes (.delayPassed :: more)
        ((run settings more).2.filter Occurrence.isOutward) (run settings more).1 := ⟨rfl, rfl⟩
    have hsignals : .delayPassed :: (Script.course script ++ more)
        = (script.flatMap fun a => .delayPassed :: (a.signals .patient).1)
          ++ .delayPassed :: more := by
      rw [← List.cons_append, delayPassed_course, List.append_assoc]
      rfl
    have hgoes := (@goes_script settings script h).append hmore
    rw [run_eq, hsignals]
    exact ⟨hgoes.client, hgoes.outward⟩
  · have hstop : (live settings .waiting).Goes [.stop, .delayPassed] []
        ⟨settings, false, .stopped⟩ := ⟨rfl, rfl⟩
    have hgoes := (@goes_script settings script h).append hstop
    rw [← delayPassed_signals hne h, List.append_nil] at hgoes
    have hwhole : whole = (live settings .waiting).steps
        (.delayPassed :: Script.signals .patient script) := run_eq ..
    have houtward : whole.2.filter Occurrence.isOutward = Script.trace settings script := by
      rw [hwhole]
      exact hgoes.outward
    refine ⟨?_, houtward, ?_, ?_, ?_⟩
    · rw [hwhole]
      exact hgoes.client
    · rw [← Occurrence.filterMap_outward (fun _ => rfl), houtward, Script.events_trace]
    · rw [← Occurrence.filterMap_outward (fun _ => rfl), houtward, Script.attempts_trace]
    · rw [← Occurrence.countP_outward, houtward, Script.received_trace]
  · have hstart : Live (live settings .connecting) := ⟨rfl, nofun, nofun⟩
    exact live_steps hstart signals hsignals

/-- The chain of a feed, and five seconds between attempts. -/
def plainFeed : FeedSettings where
  address := "wss://feed.example/feed"
  genesis := "0xg"
  reconnectDelay := FeedSettings.seconds 5
  openTimeout := FeedSettings.seconds 30
  pingInterval := none
  pingTimeout := none
  maxMessageBytes := 1024
  queueSize := 1

/-- An import of a block of a height. -/
def importFrame (height : ℕ) : Message :=
  .text ("[6,[1,[" ++ Decimal.ofNat height ++ ",\"a\",0,0,5]]]")

/-- One attempt is refused, one connection breaks before the subscription is sent, one after two
messages, and one ends. -/
def roughScript : List Attempt :=
  [.failed (.network "refused"), .connected ⟨some .timedOut, [importFrame 7], none⟩,
    .connected ⟨none, [importFrame 8, .binary [255]], some .abandoned⟩,
    .connected ⟨none, [importFrame 9], none⟩]

theorem whole_of_roughScript :
    (∀ a ∈ roughScript, a.Handled)
    ∧ (run plainFeed (Script.signals .patient roughScript)).1.phase = .stopped
    ∧ (run plainFeed (Script.signals .patient roughScript)).2.filterMap Occurrence.event?
      = [.blockImport ⟨1, 8, "a", 5⟩, .blockImport ⟨1, 9, "a", 5⟩]
    ∧ (run plainFeed (Script.signals .patient roughScript)).2.filterMap Occurrence.attempted?
      = List.replicate 4 plainFeed
    ∧ (run plainFeed (Script.signals .patient roughScript)).2.countP Occurrence.isReceived = 3 := by
  have hhandled : ∀ a ∈ roughScript, a.Handled := by decide
  obtain ⟨-, hwhole, -⟩ := delivers_whole_feed plainFeed roughScript hhandled
  obtain ⟨hclient, -, hevents, hattempts, hreceived⟩ := hwhole (by decide)
  refine ⟨hhandled, congrArg Client.phase hclient, hevents.trans ?_, hattempts, hreceived⟩
  decide +kernel

end Client

end AuthorWatch
