import AuthorWatch.Observer
import AuthorWatch.Proofs.Recorder.Course

/-! Events applied one after another. What an observer comes to is what its recorder comes to,
together with two counts: of all events, and of the rows that were given back. The queue plays
no part in it, so it may hold anything meanwhile. -/

namespace AuthorWatch.Observer

/-- The arrivals of events, those of imports at the times that a clock gives one after the other.
If a time is unknown, the event fails before it gets to a recorder. -/
def arrivals : List (Option Int) → List Event → List Arrival
  | _, [] => []
  | clock, .announce a :: events => ⟨.event (.announce a), 0⟩ :: arrivals clock events
  | clock, .blockImport b :: events =>
    match readClock clock with
    | (none, clock) => arrivals clock events
    | (some now, clock) => ⟨.event (.blockImport b), now⟩ :: arrivals clock events

def session (o : Observer) : Session := ⟨o.recorder, o.files⟩

/-- Another queue in the place of the one there is. -/
def withQueue (o : Observer) (queue : List Event) : Observer := { o with queue }

/-- The rows that arrivals give back, counted arrival by arrival. -/
def rowCount (s : Session) (arrivals : List Arrival) : ℕ :=
  ((s.outcomes arrivals).map fun outcome => outcome.returned.length).sum

variable (o : Observer) (e : Event)

@[simp] theorem queue_withQueue (queue : List Event) : (o.withQueue queue).queue = queue := rfl

@[simp] theorem withQueue_queue : o.withQueue o.queue = o := rfl

/-! ### One event -/

variable {o e} in
/-- An event without a time is counted, and nothing else is done. -/
theorem apply_of_unknown {clock : List (Option Int)} (h : o.timeOf e = (none, clock)) :
    (o.apply e).1 = { o with clock, processed := o.processed + 1 } := by
  simp only [apply, h]

variable {o e} in
/-- An event is processed at its time, and counted even if it fails. -/
theorem apply_of_known {clock : List (Option Int)} {now : Int}
    (h : o.timeOf e = (some now, clock)) :
    (o.apply e).1 = { o with
      recorder := (o.session.apply ⟨.event e, now⟩).recorder
      files := (o.session.apply ⟨.event e, now⟩).files
      clock
      processed := o.processed + 1
      emitted := o.emitted + (o.session.apply ⟨.event e, now⟩).returned.length } := by
  have happly : o.session.apply ⟨.event e, now⟩ = o.recorder.process o.files (.event e) now := rfl
  simp only [apply, h, happly, Recorder.Outcome.returned]
  cases (o.recorder.process o.files (.event e) now).rows <;> rfl

/-- The queue plays no part. -/
theorem apply_withQueue (queue : List Event) :
    ((o.withQueue queue).apply e).1 = (o.apply e).1.withQueue queue := by
  have htime : (o.withQueue queue).timeOf e = o.timeOf e := by cases e <;> rfl
  rcases h : o.timeOf e with ⟨now, clock⟩
  cases now with
  | none => rw [apply_of_unknown h, apply_of_unknown (htime.trans h)]; rfl
  | some now => rw [apply_of_known h, apply_of_known (htime.trans h)]; rfl

@[simp] theorem queue_apply : (o.apply e).1.queue = o.queue := by
  rcases h : o.timeOf e with ⟨now, clock⟩
  cases now with
  | none => rw [apply_of_unknown h]
  | some now => rw [apply_of_known h]

@[simp] theorem capacity_apply : (o.apply e).1.capacity = o.capacity := by
  rcases h : o.timeOf e with ⟨now, clock⟩
  cases now with
  | none => rw [apply_of_unknown h]
  | some now => rw [apply_of_known h]

/-! ### Many events -/

variable (events : List Event)

@[simp] theorem applyAll_nil : (o.applyAll []).1 = o := rfl

@[simp] theorem applyAll_cons : (o.applyAll (e :: events)).1 = ((o.apply e).1.applyAll events).1 :=
  rfl

theorem applyAll_concat : (o.applyAll (events ++ [e])).1 = ((o.applyAll events).1.apply e).1 := by
  induction events generalizing o with
  | nil => rfl
  | cons first events ih => exact ih (o.apply first).1

@[simp] theorem queue_applyAll : (o.applyAll events).1.queue = o.queue := by
  induction events generalizing o with
  | nil => rfl
  | cons first events ih => rw [applyAll_cons, ih, queue_apply]

@[simp] theorem capacity_applyAll : (o.applyAll events).1.capacity = o.capacity := by
  induction events generalizing o with
  | nil => rfl
  | cons first events ih => rw [applyAll_cons, ih, capacity_apply]

variable {o e} in
theorem arrivals_of_unknown {clock : List (Option Int)} (h : o.timeOf e = (none, clock)) :
    arrivals o.clock (e :: events) = arrivals clock events := by
  cases e with
  | announce a => cases h
  | blockImport b =>
    have hread : readClock o.clock = (none, clock) := h
    simp only [arrivals, hread]

variable {o e} in
theorem arrivals_of_known {clock : List (Option Int)} {now : Int}
    (h : o.timeOf e = (some now, clock)) :
    arrivals o.clock (e :: events) = ⟨.event e, now⟩ :: arrivals clock events := by
  cases e with
  | announce a => cases h; rfl
  | blockImport b =>
    have hread : readClock o.clock = (some now, clock) := h
    simp only [arrivals, hread]

/-- The recorder and its files go through the arrivals of the events. -/
theorem session_applyAll :
    (o.applyAll events).1.session = o.session.after (arrivals o.clock events) := by
  induction events generalizing o with
  | nil => rfl
  | cons e events ih =>
    rw [applyAll_cons, ih]
    rcases h : o.timeOf e with ⟨now, clock⟩
    cases now with
    | none => rw [apply_of_unknown h, arrivals_of_unknown events h]; rfl
    | some now => rw [apply_of_known h, arrivals_of_known events h]; rfl

/-- Every event is counted. -/
theorem processed_applyAll : (o.applyAll events).1.processed = o.processed + events.length := by
  induction events generalizing o with
  | nil => rfl
  | cons e events ih =>
    have hone : (o.apply e).1.processed = o.processed + 1 := by
      rcases h : o.timeOf e with ⟨now, clock⟩
      cases now with
      | none => rw [apply_of_unknown h]
      | some now => rw [apply_of_known h]
    rw [applyAll_cons, ih, hone, List.length_cons]
    omega

/-- The rows are counted that were given back. -/
theorem emitted_applyAll : (o.applyAll events).1.emitted
    = o.emitted + rowCount o.session (arrivals o.clock events) := by
  induction events generalizing o with
  | nil => rfl
  | cons e events ih =>
    rw [applyAll_cons, ih]
    rcases h : o.timeOf e with ⟨now, clock⟩
    cases now with
    | none => rw [apply_of_unknown h, arrivals_of_unknown events h]; rfl
    | some now =>
      have hcons : rowCount o.session (⟨.event e, now⟩ :: arrivals clock events)
          = (o.session.apply ⟨.event e, now⟩).returned.length
            + rowCount (o.session.next ⟨.event e, now⟩) (arrivals clock events) := by
        simp [rowCount, Session.outcomes]
      rw [apply_of_known h, arrivals_of_known events h, hcons]
      exact Nat.add_assoc ..

end AuthorWatch.Observer
