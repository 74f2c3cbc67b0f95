import AuthorWatch.Proofs.Observer.Tasks

/-! Watching a feed comes to the same as applying its events one after another. This holds in
whatever order the tasks get on; the order in which `Observer.watch` has them get on, working
off the queue while the client waits or when the queue is full, is one of these. -/

namespace AuthorWatch

namespace Observer

/-- The observer has applied events to a session, one after another, and to nothing else. -/
structure HasApplied (s : Session) (clock : List (Option Int)) (events : List Event)
    (o : Observer) : Prop where
  session : o.session = s.after (arrivals clock events)
  processed : o.processed = events.length
  emitted : o.emitted = rowCount s (arrivals clock events)

theorem hasApplied_of_applyAll {recorder : Recorder} {files : FileTree}
    {clock : List (Option Int)} {capacity : ℕ} {events : List Event} {o : Observer}
    (h : o.withQueue [] = ((fresh recorder files clock capacity).applyAll events).1) :
    o.HasApplied ⟨recorder, files⟩ clock events where
  session := by
    have hsession := session_applyAll (fresh recorder files clock capacity) events
    rw [← h] at hsession
    exact hsession
  processed := by
    have hprocessed := processed_applyAll (fresh recorder files clock capacity) events
    rw [← h] at hprocessed
    exact hprocessed.trans (Nat.zero_add _)
  emitted := by
    have hemitted := emitted_applyAll (fresh recorder files clock capacity) events
    rw [← h] at hemitted
    exact hemitted.trans (Nat.zero_add _)

@[simp] theorem queue_drain (o : Observer) : o.drain.1.queue = [] := queue_applyAll ..

end Observer

namespace Tasks

/-! ### One of the orders -/

/-- Nothing is held, so all that is unfinished is in the queue. -/
def idle (o : Observer) (coming : List Event) (stage : Stage) : Tasks :=
  ⟨o, coming, none, o.queue.length, stage⟩

/-- Events are taken out and applied, so many of them. -/
def work : ℕ → List Move
  | 0 => []
  | n + 1 => .take :: .finish :: work n

variable {o : Observer} {coming : List Event} {stage : Stage}

/-- Working off the queue. -/
theorem follow?_work (hr : stage ≠ .returned) :
    (idle o coming stage).follow? (work o.queue.length) = some (idle o.drain.1 coming stage) := by
  have hdrain : ∀ o : Observer, o.drain.1 = ((o.withQueue []).applyAll o.queue).1 := fun _ => rfl
  generalize hq : o.queue = queue
  induction queue generalizing o with
  | nil =>
    have hsame : o.drain.1 = o := by
      rw [hdrain, hq, Observer.applyAll_nil, ← hq, Observer.withQueue_queue]
    rw [hsame]
    rfl
  | cons e queue ih =>
    have htake : (idle o coming stage).move? .take
        = some { idle o coming stage with observer := o.withQueue queue, held := some e } :=
      take_iff.mpr ⟨e, queue, hr, rfl, hq, rfl⟩
    have hfinish : move? { idle o coming stage with observer := o.withQueue queue, held := some e }
        .finish = some (idle ((o.apply e).1.withQueue queue) coming stage) := by
      refine finish_iff.mpr ⟨e, hr, rfl, ?_⟩
      simp [idle, hq, Observer.apply_withQueue]
    have hlater : ((o.apply e).1.withQueue queue).drain.1 = o.drain.1 := by
      rw [hdrain, hdrain, hq, Observer.applyAll_cons, Observer.apply_withQueue]
      rfl
    have hrest := ih (Observer.queue_withQueue (o.apply e).1 queue)
    rw [hlater] at hrest
    rw [List.length_cons, work, follow?_cons, htake, Option.bind_some, follow?_cons, hfinish,
      Option.bind_some, hrest]

theorem follow?_put {e : Event} (hroom : o.queue.length < o.capacity) :
    (idle o (e :: coming) .feeding).follow? [.put] = some (idle (o.enqueue e) coming .feeding) := by
  have hput : (idle o (e :: coming) .feeding).move? .put
      = some (idle (o.enqueue e) coming .feeding) := by
    refine put_iff.mpr ⟨e, coming, rfl, rfl, hroom, ?_⟩
    simp [idle, Observer.enqueue]
  rw [follow?_cons, hput]
  rfl

/-- What an observer does at one occurrence, the tasks can do. -/
theorem exists_follow_react (hc : 0 < o.capacity) (occurrence : Occurrence)
    (coming : List Event) : ∃ moves,
    (idle o (occurrence.event?.toList ++ coming) .feeding).follow? moves
      = some (idle (o.react occurrence).1 coming .feeding) := by
  cases occurrence with
  | yielded e =>
    simp only [Occurrence.event?, Option.toList_some, List.singleton_append, Observer.react,
      Observer.put]
    split
    next hroom => exact ⟨[.put], follow?_put hroom⟩
    next =>
      have hroom : o.drain.1.queue.length < o.drain.1.capacity := by
        rw [Observer.queue_drain]
        exact Nat.lt_of_lt_of_eq hc (Observer.capacity_applyAll (o.withQueue []) o.queue).symm
      refine ⟨work o.queue.length ++ [.put], ?_⟩
      rw [follow?_append, follow?_work (by decide), Option.bind_some, follow?_put hroom]
  | waited => exact ⟨work o.queue.length, follow?_work (by decide)⟩
  | _ => exact ⟨[], rfl⟩

theorem exists_follow_reactAll (hc : 0 < o.capacity) (occurrences : List Occurrence) :
    ∃ moves, (idle o (occurrences.filterMap Occurrence.event?) .feeding).follow? moves
      = some (idle (o.reactAll occurrences).1 [] .feeding) := by
  induction occurrences generalizing o with
  | nil => exact ⟨[], rfl⟩
  | cons occurrence occurrences ih =>
    obtain ⟨moves, hmoves⟩ :=
      exists_follow_react hc occurrence (occurrences.filterMap Occurrence.event?)
    have hcapacity : (o.react occurrence).1.capacity = o.capacity := capacity_follow hmoves
    obtain ⟨more, hmore⟩ := ih (o := (o.react occurrence).1) (by rw [hcapacity]; exact hc)
    have hevents : (occurrence :: occurrences).filterMap Occurrence.event?
        = occurrence.event?.toList ++ occurrences.filterMap Occurrence.event? := by
      cases h : occurrence.event? <;> simp [h]
    refine ⟨moves ++ more, ?_⟩
    rw [hevents, follow?_append, hmoves, Option.bind_some, hmore]
    rfl

/-- A watch that is not interrupted is one of the orders in which the tasks can get on. -/
theorem exists_follow_watch (hc : 0 < o.capacity) (hq : o.queue = []) {settings : FeedSettings}
    {signals : List Signal} (hend : (Client.run settings signals).1.phase ≠ .interrupted) :
    ∃ moves w, (start o ((Client.run settings signals).2.filterMap Occurrence.event?)).follow? moves
        = some w ∧ w.stage = .returned ∧ w.observer = (o.watch settings signals).observer := by
  have hwatch : (o.watch settings signals).observer
      = (o.reactAll (Client.run settings signals).2).1.drain.1 := by
    simp only [Observer.watch, hend, decide_false]
    rfl
  rcases hrun : Client.run settings signals with ⟨client, occurrences⟩
  rw [hrun] at hwatch
  obtain ⟨moves, hmoves⟩ := exists_follow_reactAll hc occurrences
  have hstart : start o (occurrences.filterMap Occurrence.event?)
      = idle o (occurrences.filterMap Occurrence.event?) .feeding := by
    simp [start, idle, hq]
  set later := (o.reactAll occurrences).1
  refine ⟨moves ++ (.endFeed :: work later.queue.length ++ [.stop]),
    { idle later.drain.1 [] .draining with stage := .returned }, ?_, rfl, hwatch.symm⟩
  have hend : (idle later [] .feeding).move? .endFeed = some (idle later [] .draining) := rfl
  have hstop : (idle later.drain.1 [] .draining).move? .stop
      = some { idle later.drain.1 [] .draining with stage := .returned } := by
    refine stop_iff.mpr ⟨rfl, ?_, rfl⟩
    simp [idle]
  rw [hstart, follow?_append, hmoves, Option.bind_some, List.cons_append, follow?_cons, hend,
    Option.bind_some, follow?_append, follow?_work (by decide), Option.bind_some, follow?_cons, hstop]
  rfl

/-- Whatever the order in which the tasks get on, and whatever the queue holds, at every point a
first part of the events has been applied, in order, and all others are held, queued or coming;
the watch returns only when all were applied. Until then something can happen, and not for ever.
An event that fails is counted and gives no rows. What `Observer.watch` comes to is reached in
one of these orders. -/
theorem applied_in_order (recorder : Recorder) (files : FileTree) (clock : List (Option Int))
    {capacity : ℕ} (hc : 0 < capacity) (events : List Event) :
    let first := Observer.fresh recorder files clock capacity
    let s : Session := ⟨recorder, files⟩
    (∀ moves w, (start first events).follow? moves = some w →
      (∃ done, events = done ++ (w.held.toList ++ (w.observer.queue ++ w.coming))
        ∧ w.observer.HasApplied s clock done)
      ∧ (w.stage = .returned → w.observer.HasApplied s clock events)
      ∧ (w.stage = .returned ∨ ∃ m w', w.move? m = some w')
      ∧ moves.length ≤ 3 * events.length + 2)
    ∧ ∀ settings signals, (Client.run settings signals).1.phase ≠ .interrupted →
      (Client.run settings signals).2.filterMap Occurrence.event? = events →
      ∃ moves w, (start first events).follow? moves = some w ∧ w.stage = .returned
        ∧ w.observer = (first.watch settings signals).observer := by
  intro first s
  refine ⟨fun moves w hw => ?_, fun settings signals hend hevents => ?_⟩
  · have horder : InOrder first events w := inOrder_follow (inOrder_start rfl) hw
    have hcapacity : w.observer.capacity = capacity := capacity_follow hw
    refine ⟨?_, fun hr => ?_, ?_, ?_⟩
    · obtain ⟨done, hevents, hdone⟩ := horder.done
      exact ⟨done, hevents, Observer.hasApplied_of_applyAll hdone⟩
    · exact Observer.hasApplied_of_applyAll (hasDone_of_returned horder hr).1
    · by_cases hr : w.stage = .returned
      · exact .inl hr
      · exact .inr (exists_move horder (by rw [hcapacity]; exact hc) hr)
    · have hleft := movesLeft_follow (inOrder_start rfl) hw
      have hstart : (start first events).movesLeft = 3 * events.length + 2 := rfl
      omega
  · rw [← hevents]
    exact exists_follow_watch hc rfl hend

/-- Two blocks and a node between them. -/
def threeEvents : List Event :=
  [.blockImport ⟨1, 10, "a", 5⟩, .announce ⟨2, "n", "i"⟩, .blockImport ⟨2, 11, "b", 7⟩]

/-- A queue that is full with one event, and a clock that fails at first. -/
def failingClock : Observer :=
  .fresh ⟨⟨.empty, .empty, ⟨1, 3, 1⟩, .standard⟩, ⟨none, none⟩⟩ .empty [none, some 9] 1

/-- An order in which the second event is put before the first is done. -/
def overlapping : List Move :=
  [.put, .take, .put, .finish, .take, .put, .finish, .endFeed, .take, .finish, .stop]

/-- The first event fails, and the others are applied. -/
theorem applied_overlapping : ∃ w, (start failingClock threeEvents).follow? overlapping = some w
    ∧ w.stage = .returned ∧ w.observer.processed = 3 ∧ w.observer.emitted = 1
    ∧ w.observer.recorder.tracker.ledger.keys = [("b" : Text)] := by
  obtain ⟨hall, -⟩ := applied_in_order ⟨⟨.empty, .empty, ⟨1, 3, 1⟩, .standard⟩, ⟨none, none⟩⟩ .empty
    [none, some 9] Nat.one_pos threeEvents
  have hreturned : ((start failingClock threeEvents).follow? overlapping).map Tasks.stage
      = some .returned := by decide +kernel
  obtain ⟨w, hw, hstage⟩ := Option.map_eq_some_iff.mp hreturned
  obtain ⟨-, happlied, -, -⟩ := hall overlapping w hw
  obtain ⟨hsession, hprocessed, hemitted⟩ := happlied hstage
  refine ⟨w, hw, hstage, hprocessed, hemitted.trans (by decide +kernel), ?_⟩
  have hledger : w.observer.recorder.tracker.ledger = w.observer.session.recorder.tracker.ledger :=
    rfl
  rw [hledger, hsession]
  decide +kernel

end Tasks

end AuthorWatch
