import AuthorWatch.Proofs.Recorder.Process

/-! Runs of a recorder: items arrive one after another, each at its time, and the files
that one leaves are those that the next finds. -/

namespace AuthorWatch

/-- An item, and the time at which it is processed. -/
structure Arrival where
  item : Item
  now : Int
  deriving DecidableEq

/-- A recorder and the files it works on. -/
structure Session where
  recorder : Recorder
  files : FileTree

namespace Session

/-- The outcome of processing an arrival. -/
def apply (s : Session) (a : Arrival) : Recorder.Outcome := s.recorder.process s.files a.item a.now

/-- The session that an arrival leaves. -/
def next (s : Session) (a : Arrival) : Session := ⟨(s.apply a).recorder, (s.apply a).files⟩

/-- The session after arrivals, one after another. -/
def after (s : Session) (arrivals : List Arrival) : Session := arrivals.foldl next s

@[simp] theorem after_nil (s : Session) : s.after [] = s := rfl

@[simp] theorem after_cons (s : Session) (a : Arrival) (arrivals : List Arrival) :
    s.after (a :: arrivals) = (s.next a).after arrivals := rfl

theorem after_append (s : Session) (earlier later : List Arrival) :
    s.after (earlier ++ later) = (s.after earlier).after later := List.foldl_append

/-- What came of arrivals, one after another. -/
def outcomes : Session → List Arrival → List Recorder.Outcome
  | _, [] => []
  | s, a :: arrivals => s.apply a :: (s.next a).outcomes arrivals

theorem getElem?_outcomes (s : Session) (arrivals : List Arrival) (n : ℕ) :
    (s.outcomes arrivals)[n]? = arrivals[n]?.map (s.after (arrivals.take n)).apply := by
  induction arrivals generalizing s n with
  | nil => rfl
  | cons a arrivals ih =>
    cases n with
    | zero => rfl
    | succ n => simpa [outcomes] using ih (s.next a) n

@[simp] theorem tracker_next (s : Session) (a : Arrival) :
    (s.next a).recorder.tracker = (s.recorder.tracker.step a.now a.item).1 :=
  s.recorder.tracker_process s.files a.item a.now

end Session

/-- A run of a recorder that has nothing in memory at first. -/
structure Run where
  policy : Policy
  window : Window
  storage : Storage
  files : FileTree
  arrivals : List Arrival

namespace Run

variable (r : Run)

def start : Session := ⟨⟨⟨.empty, .empty, r.policy, r.window⟩, r.storage⟩, r.files⟩

/-- The session that arrival `n` finds. -/
def session (n : ℕ) : Session := r.start.after (r.arrivals.take n)

def tracker (n : ℕ) : Tracker := (r.session n).recorder.tracker

def ledger (n : ℕ) : Ledger := (r.tracker n).ledger

/-- Arrival `n` gives rows back. -/
def Returns (n : ℕ) (rows : List Row) : Prop :=
  ∃ a, r.arrivals[n]? = some a ∧ ((r.session n).apply a).rows = .ok rows

variable {r} {n : ℕ} {a : Arrival}

theorem session_succ (h : r.arrivals[n]? = some a) : r.session (n + 1) = (r.session n).next a := by
  rw [session, List.take_add_one, h, Session.after_append]
  rfl

theorem tracker_succ (h : r.arrivals[n]? = some a) :
    r.tracker (n + 1) = ((r.tracker n).step a.now a.item).1 := by
  rw [tracker, session_succ h, Session.tracker_next]
  rfl

theorem ledger_succ (h : r.arrivals[n]? = some a) :
    r.ledger (n + 1) = ((r.tracker n).step a.now a.item).1.ledger := by
  rw [ledger, tracker_succ h]

@[simp] theorem get?_ledger_zero (hash : Text) : (r.ledger 0).get? hash = none := rfl

/-- After the last arrival nothing changes. -/
theorem session_succ_of_length_le (h : r.arrivals.length ≤ n) :
    r.session (n + 1) = r.session n := by
  rw [session, session, List.take_of_length_le h, List.take_of_length_le (Nat.le_succ_of_le h)]

theorem ledger_succ_of_length_le (h : r.arrivals.length ≤ n) : r.ledger (n + 1) = r.ledger n := by
  rw [ledger, tracker, session_succ_of_length_le h]
  rfl

theorem getElem?_of_lt (h : n < r.arrivals.length) : ∃ a, r.arrivals[n]? = some a :=
  ⟨r.arrivals[n], List.getElem?_eq_getElem h⟩

/-- What holds at first and is kept by every arrival holds throughout a run. -/
theorem session_induction {P : Session → Prop} (hstart : P r.start)
    (hnext : ∀ s a, P s → P (s.next a)) (n : ℕ) : P (r.session n) := by
  induction n with
  | zero => exact hstart
  | succ n ih =>
    by_cases hn : n < r.arrivals.length
    · obtain ⟨a, ha⟩ := getElem?_of_lt hn
      rw [session_succ ha]
      exact hnext _ a ih
    · rw [session_succ_of_length_le (by omega)]
      exact ih

variable (r) in
@[simp] theorem policy_tracker (n : ℕ) : (r.tracker n).policy = r.policy := by
  refine session_induction (P := fun s => s.recorder.tracker.policy = r.policy) rfl ?_ n
  intro s a h
  rw [Session.tracker_next, Tracker.policy_step, h]

variable (r) in
/-- A recorder keeps the paths of its snapshots, and its output or that it has none. -/
theorem storage_session (n : ℕ) : (r.session n).recorder.storage.store = r.storage.store
    ∧ (r.session n).recorder.storage.output.isSome = r.storage.output.isSome := by
  refine session_induction (P := fun s => s.recorder.storage.store = r.storage.store
    ∧ s.recorder.storage.output.isSome = r.storage.output.isSome) ⟨rfl, rfl⟩ ?_ n
  intro s a h
  exact ⟨(Recorder.store_process ..).trans h.1, (Recorder.isSome_output_process ..).trans h.2⟩

/-- What an arrival gives back is what its item brings to the tracker. -/
theorem rows_of_returns (h : r.arrivals[n]? = some a) {rows : List Row} (hr : r.Returns n rows) :
    rows = ((r.tracker n).step a.now a.item).2 := by
  obtain ⟨a', ha', hrows⟩ := hr
  cases h.symm.trans ha'
  exact Recorder.rows_of_process_ok hrows

end Run

end AuthorWatch
