import AuthorWatch.Proofs.Observer.Sequence
import Mathlib.Tactic.Common

/-! The tasks of a watch. One puts the events of the feed into the queue and has to wait while
the queue is full; one takes them out and applies them; and the watch itself waits for the feed
to end, then until every event that was put is reported done, and stops both. In which order
the tasks get on is left open. Whatever the order, the events are applied one after another as
they came, none is lost when the tasks are stopped, and the watch always gets to its end. -/

namespace AuthorWatch

/-- What the watch itself is at. -/
inductive Stage where
  /-- It waits for the feed to end. -/
  | feeding
  /-- It waits until every event that was put is done. -/
  | draining
  | returned
  deriving DecidableEq

structure Tasks where
  observer : Observer
  /-- The events that the feed has still to bring. -/
  coming : List Event
  /-- The event that was taken out of the queue and is not done yet. -/
  held : Option Event
  /-- How many events were put and not reported done. -/
  unfinished : ℕ
  stage : Stage

/-- What can happen next. -/
inductive Move where
  | put
  | take
  | finish
  | endFeed
  | stop
  deriving DecidableEq

namespace Tasks

/-- An observer that is about to watch a feed. -/
def start (o : Observer) (events : List Event) : Tasks := ⟨o, events, none, 0, .feeding⟩

/-- The tasks after a move, if it is possible. Stopping drops the event that is held. -/
def move? (w : Tasks) : Move → Option Tasks
  | .put =>
    match w.stage, w.coming with
    | .feeding, e :: coming =>
      if w.observer.queue.length < w.observer.capacity then
        some { w with observer := w.observer.enqueue e, coming, unfinished := w.unfinished + 1 }
      else none
    | _, _ => none
  | .take =>
    match w.stage, w.held, w.observer.queue with
    | .returned, _, _ => none
    | _, none, e :: queue => some { w with observer := w.observer.withQueue queue, held := some e }
    | _, _, _ => none
  | .finish =>
    match w.stage, w.held with
    | .returned, _ => none
    | _, some e =>
      some { w with
        observer := (w.observer.apply e).1, held := none, unfinished := w.unfinished - 1 }
    | _, none => none
  | .endFeed =>
    match w.stage, w.coming with
    | .feeding, [] => some { w with stage := .draining }
    | _, _ => none
  | .stop =>
    match w.stage with
    | .draining => if w.unfinished = 0 then some { w with held := none, stage := .returned } else none
    | _ => none

/-- The tasks after moves, one after another, if they are possible. -/
def follow? (w : Tasks) (moves : List Move) : Option Tasks := moves.foldlM move? w

variable {w w' : Tasks} {m : Move} {moves : List Move}

@[simp] theorem follow?_cons : w.follow? (m :: moves) = (w.move? m).bind fun w => w.follow? moves :=
  rfl

theorem follow?_append (more : List Move) :
    w.follow? (moves ++ more) = (w.follow? moves).bind fun w => w.follow? more :=
  List.foldlM_append

/-! ### What a move does -/

theorem put_iff : w.move? .put = some w' ↔ ∃ e coming, w.stage = .feeding ∧ w.coming = e :: coming
    ∧ w.observer.queue.length < w.observer.capacity
    ∧ w' = { w with
        observer := w.observer.enqueue e, coming, unfinished := w.unfinished + 1 } := by
  obtain ⟨o, coming, held, unfinished, stage⟩ := w
  cases stage <;> cases coming <;> simp [move?, eq_comm]

theorem take_iff : w.move? .take = some w' ↔ ∃ e queue, w.stage ≠ .returned ∧ w.held = none
    ∧ w.observer.queue = e :: queue
    ∧ w' = { w with observer := w.observer.withQueue queue, held := some e } := by
  obtain ⟨o, coming, held, unfinished, stage⟩ := w
  cases stage <;> cases held <;> cases hq : o.queue <;> simp [move?, hq, eq_comm]

theorem finish_iff : w.move? .finish = some w' ↔ ∃ e, w.stage ≠ .returned ∧ w.held = some e
    ∧ w' = { w with
        observer := (w.observer.apply e).1, held := none, unfinished := w.unfinished - 1 } := by
  obtain ⟨o, coming, held, unfinished, stage⟩ := w
  cases stage <;> cases held <;> simp [move?, eq_comm]

theorem endFeed_iff : w.move? .endFeed = some w' ↔ w.stage = .feeding ∧ w.coming = []
    ∧ w' = { w with stage := .draining } := by
  obtain ⟨o, coming, held, unfinished, stage⟩ := w
  cases stage <;> cases coming <;> simp [move?, eq_comm]

theorem stop_iff : w.move? .stop = some w' ↔ w.stage = .draining ∧ w.unfinished = 0
    ∧ w' = { w with held := none, stage := .returned } := by
  obtain ⟨o, coming, held, unfinished, stage⟩ := w
  cases stage <;> simp [move?, eq_comm]

/-! ### In the order of the feed -/

/-- The first of the events were applied, in order, and the others are held, queued or coming. -/
def HasDone (first : Observer) (events : List Event) (w : Tasks) (done : List Event) : Prop :=
  events = done ++ (w.held.toList ++ (w.observer.queue ++ w.coming))
    ∧ w.observer.withQueue [] = (first.applyAll done).1

structure InOrder (first : Observer) (events : List Event) (w : Tasks) : Prop where
  done : ∃ done, HasDone first events w done
  unfinished : w.unfinished = w.held.toList.length + w.observer.queue.length
  ended : w.stage ≠ .feeding → w.coming = []
  settled : w.stage = .returned → w.unfinished = 0

variable {first : Observer} {events : List Event}

theorem inOrder_start (hq : first.queue = []) : InOrder first events (start first events) where
  done := by
    have hsame : first.withQueue [] = first := hq ▸ first.withQueue_queue
    exact ⟨[], by simp [start, hq], hsame⟩
  unfinished := by simp [start, hq]
  ended h := absurd rfl h
  settled h := nomatch h

theorem inOrder_move (h : InOrder first events w) (hm : w.move? m = some w') :
    InOrder first events w' := by
  obtain ⟨⟨done, hevents, hdone⟩, hunfinished, hended, hsettled⟩ := h
  cases m with
  | put =>
    obtain ⟨e, coming, hstage, hcoming, -, rfl⟩ := put_iff.mp hm
    refine ⟨⟨done, ?_, hdone⟩, ?_, fun h => absurd hstage h, fun h => ?_⟩
    · rw [hevents, hcoming]
      simp [Observer.enqueue]
    · simp only [Observer.enqueue, List.length_append, List.length_singleton, hunfinished]
      omega
    · cases hstage.symm.trans h
  | take =>
    obtain ⟨e, queue, hstage, hheld, hqueue, rfl⟩ := take_iff.mp hm
    refine ⟨⟨done, ?_, hdone⟩, ?_, hended, hsettled⟩
    · rw [hevents, hheld, hqueue]
      simp
    · rw [hunfinished, hheld, hqueue]
      simp [Nat.add_comm]
  | finish =>
    obtain ⟨e, hstage, hheld, rfl⟩ := finish_iff.mp hm
    refine ⟨⟨done ++ [e], ?_, ?_⟩, ?_, hended, fun h => absurd h hstage⟩
    · rw [hevents, hheld]
      simp
    · rw [Observer.applyAll_concat, ← hdone, Observer.apply_withQueue]
    · rw [hheld] at hunfinished
      simp [hunfinished]
  | endFeed =>
    obtain ⟨hstage, hcoming, rfl⟩ := endFeed_iff.mp hm
    exact ⟨⟨done, hevents, hdone⟩, hunfinished, fun _ => hcoming, nofun⟩
  | stop =>
    -- what is reported done is counted, so nothing is held any more
    obtain ⟨hstage, hnone, rfl⟩ := stop_iff.mp hm
    have hheld : w.held = none := by
      cases hh : w.held with
      | none => rfl
      | some e =>
        rw [hh, hnone, Option.toList_some, List.length_singleton] at hunfinished
        omega
    refine ⟨⟨done, ?_, hdone⟩, ?_, fun _ => hended (by rw [hstage]; nofun), fun _ => hnone⟩
    · rw [hevents, hheld]
    · rw [hunfinished, hheld]

theorem inOrder_follow (h : InOrder first events w) (hm : w.follow? moves = some w') :
    InOrder first events w' := by
  induction moves generalizing w with
  | nil => cases hm; exact h
  | cons m moves ih =>
    obtain ⟨v, hv, hrest⟩ := Option.bind_eq_some_iff.mp hm
    exact ih (inOrder_move h hv) hrest

/-- After the return all events are done, one after another. -/
theorem hasDone_of_returned (h : InOrder first events w) (hr : w.stage = .returned) :
    w.observer.withQueue [] = (first.applyAll events).1 ∧ w.observer.queue = [] := by
  obtain ⟨⟨done, hevents, hdone⟩, hunfinished, hended, hsettled⟩ := h
  have hzero := hsettled hr
  have hcoming : w.coming = [] := hended (by rw [hr]; nofun)
  have hqueue : w.observer.queue = [] := List.length_eq_zero_iff.mp (by omega)
  have hheld : w.held.toList = [] := List.length_eq_zero_iff.mp (by omega)
  rw [hcoming, hqueue, hheld] at hevents
  simp only [List.append_nil] at hevents
  exact ⟨hevents ▸ hdone, hqueue⟩

/-! ### To the end -/

/-- The moves that are left. -/
def movesLeft (w : Tasks) : ℕ :=
  3 * w.coming.length + 2 * w.observer.queue.length + w.held.toList.length
    + match w.stage with
      | .feeding => 2
      | .draining => 1
      | .returned => 0

theorem movesLeft_move (h : InOrder first events w) (hm : w.move? m = some w') :
    w.movesLeft = w'.movesLeft + 1 := by
  have hunfinished := h.unfinished
  cases m with
  | put =>
    obtain ⟨e, coming, hstage, hcoming, -, rfl⟩ := put_iff.mp hm
    simp only [movesLeft, hstage, hcoming, Observer.enqueue, List.length_append,
      List.length_cons, List.length_nil]
    omega
  | take =>
    obtain ⟨e, queue, hstage, hheld, hqueue, rfl⟩ := take_iff.mp hm
    simp only [movesLeft, hheld, hqueue, Observer.queue_withQueue, Option.toList_none,
      Option.toList_some, List.length_cons, List.length_nil]
    omega
  | finish =>
    obtain ⟨e, hstage, hheld, rfl⟩ := finish_iff.mp hm
    simp only [movesLeft, hheld, Observer.queue_apply, Option.toList_none, Option.toList_some,
      List.length_cons, List.length_nil]
    omega
  | endFeed =>
    obtain ⟨hstage, -, rfl⟩ := endFeed_iff.mp hm
    simp only [movesLeft, hstage]
  | stop =>
    obtain ⟨hstage, hnone, rfl⟩ := stop_iff.mp hm
    simp only [movesLeft, hstage, Option.toList_none, List.length_nil]
    omega

theorem movesLeft_follow (h : InOrder first events w) (hm : w.follow? moves = some w') :
    w.movesLeft = w'.movesLeft + moves.length := by
  induction moves generalizing w with
  | nil => cases hm; rfl
  | cons m moves ih =>
    obtain ⟨v, hv, hrest⟩ := Option.bind_eq_some_iff.mp hm
    rw [movesLeft_move h hv, ih (inOrder_move h hv) hrest, List.length_cons]
    omega

/-- As long as the watch has not returned, something can happen. -/
theorem exists_move (h : InOrder first events w) (hcapacity : 0 < w.observer.capacity)
    (hr : w.stage ≠ .returned) : ∃ m w', w.move? m = some w' := by
  cases hheld : w.held with
  | some e => exact ⟨.finish, _, finish_iff.mpr ⟨e, hr, hheld, rfl⟩⟩
  | none =>
    cases hqueue : w.observer.queue with
    | cons e queue => exact ⟨.take, _, take_iff.mpr ⟨e, queue, hr, hheld, hqueue, rfl⟩⟩
    | nil =>
      cases hstage : w.stage with
      | returned => exact absurd hstage hr
      | draining =>
        have hnone : w.unfinished = 0 := by rw [h.unfinished, hheld, hqueue]; rfl
        exact ⟨.stop, _, stop_iff.mpr ⟨hstage, hnone, rfl⟩⟩
      | feeding =>
        cases hcoming : w.coming with
        | nil => exact ⟨.endFeed, _, endFeed_iff.mpr ⟨hstage, hcoming, rfl⟩⟩
        | cons e coming =>
          have hroom : w.observer.queue.length < w.observer.capacity := by
            rw [hqueue]
            exact hcapacity
          exact ⟨.put, _, put_iff.mpr ⟨e, coming, hstage, hcoming, hroom, rfl⟩⟩

theorem capacity_move (hm : w.move? m = some w') : w'.observer.capacity = w.observer.capacity := by
  cases m with
  | put => obtain ⟨e, coming, -, -, -, rfl⟩ := put_iff.mp hm; rfl
  | take => obtain ⟨e, queue, -, -, -, rfl⟩ := take_iff.mp hm; rfl
  | finish => obtain ⟨e, -, -, rfl⟩ := finish_iff.mp hm; exact w.observer.capacity_apply e
  | endFeed => obtain ⟨-, -, rfl⟩ := endFeed_iff.mp hm; rfl
  | stop => obtain ⟨-, -, rfl⟩ := stop_iff.mp hm; rfl

theorem capacity_follow (hm : w.follow? moves = some w') :
    w'.observer.capacity = w.observer.capacity := by
  induction moves generalizing w with
  | nil => cases hm; rfl
  | cons m moves ih =>
    obtain ⟨v, hv, hrest⟩ := Option.bind_eq_some_iff.mp hm
    rw [ih hrest, capacity_move hv]

end Tasks

end AuthorWatch
