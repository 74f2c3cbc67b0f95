import AuthorWatch.Proofs.Ledger.View
import AuthorWatch.Proofs.Recorder.Failure

/-! Who a node says it is decides how its rows name it, and nothing else in memory. A tracker
without its names goes on by imports alone, so two trackers that were given the same imports
agree but for names, whatever was announced to each. What a row names can still end the handling
of its import, since a lone surrogate has no encoding. -/

namespace AuthorWatch

/-! ### Without names -/

def Reporter.nameless (x : Reporter) : Reporter := { x with name := [], nodeId := [] }

def Row.nameless (row : Row) : Row := { row with name := [], nodeId := [] }

namespace Record

def nameless (c : Record) : Record := { c with reporters := c.reporters.map Reporter.nameless }

theorem nameless_observe (c : Record) (x : Reporter) (time : Int) :
    (c.observe x time).nameless = c.nameless.observe x.nameless time := by
  have hlowers : c.nameless.lowers time = c.lowers time := rfl
  have hjoins : c.nameless.joins x.nameless.ordinal time = c.joins x.ordinal time := by
    simp only [joins, nameless, List.all_map]
    rfl
  unfold observe
  rw [hlowers, hjoins]
  cases c.lowers time with
  | true => rfl
  | false =>
    cases c.joins x.ordinal time with
    | true => simp [nameless]
    | false => rfl

theorem rows_nameless (c : Record) (hash : Text) :
    c.nameless.rows hash = (c.rows hash).map Row.nameless := by
  simp only [rows, nameless, List.map_map]
  rfl

/-- Everything of a record but the names of its reporters. -/
def View.nameless : View where
  record := Record.nameless
  reporter := Reporter.nameless
  height_record _ := rfl
  record_fresh _ _ := rfl
  record_observe := nameless_observe

end Record

namespace Ledger

variable {l m : Ledger} (policy : Policy) (now : Int)

/-- A registry gives names and nothing else. -/
theorem nameless_reporterFor (registry : Registry) (b : BlockImport) :
    Record.View.nameless.reporter (reporterFor registry b now) = ⟨b.ordinal, [], [], now⟩ := rfl

/-- Whether a record is due is not a matter of names. -/
theorem due_nameless (tallest : Int) (c : Record) :
    policy.due now tallest (Record.View.nameless.record c) = policy.due now tallest c := rfl

theorem nameless_sweep (l : Ledger) :
    (l.sweep policy now).seen .nameless = (l.seen .nameless).sweep policy now := by
  refine OrderedMap.eq_of_entries ?_
  rw [entries_seen, entries_sweep, entries_sweep, tallest_seen, entries_seen, List.map_map,
    List.map_map]
  refine List.map_congr_left fun entry _ => ?_
  obtain ⟨hash, c⟩ := entry
  show (hash, Record.View.nameless.record (if policy.due now l.tallest c then c.close else c))
    = (hash, if policy.due now l.tallest (Record.View.nameless.record c) then
        (Record.View.nameless.record c).close else Record.View.nameless.record c)
  rw [due_nameless]
  split
  · rfl
  · rfl

theorem nameless_sweepRows (l : Ledger) :
    (l.sweepRows policy now).map Row.nameless = (l.seen .nameless).sweepRows policy now := by
  rw [sweepRows, sweepRows, due, due, tallest_seen, entries_seen, List.filter_map,
    List.flatMap_map, List.map_flatMap]
  exact List.flatMap_congr fun entry _ => (entry.2.rows_nameless entry.1).symm

variable {policy now}

theorem nameless_count_congr (h : l.seen .nameless = m.seen .nameless)
    (registry registry' : Registry) (b : BlockImport) :
    (l.count registry b now).seen .nameless = (m.count registry' b now).seen .nameless := by
  rw [seen_count, seen_count, h, nameless_reporterFor, nameless_reporterFor]

theorem nameless_handle_congr (h : l.seen .nameless = m.seen .nameless)
    (registry registry' : Registry) (b : BlockImport) :
    (l.handle registry policy b now).1.seen .nameless
        = (m.handle registry' policy b now).1.seen .nameless
      ∧ (l.handle registry policy b now).2.map Row.nameless
        = (m.handle registry' policy b now).2.map Row.nameless := by
  have hcount := @nameless_count_congr l m now h registry registry' b
  by_cases hb : accepts b
  · simp only [handle, if_pos hb]
    constructor
    · rw [nameless_sweep, nameless_sweep, hcount]
    · rw [nameless_sweepRows, nameless_sweepRows, hcount]
  · simp only [handle, if_neg hb]
    exact ⟨h, trivial⟩

end Ledger

/-- A block was imported. -/
def Arrival.isImport (a : Arrival) : Bool :=
  match a.item with
  | .event (.blockImport _) => true
  | _ => false

theorem Arrival.exists_of_isImport {a : Arrival} (h : a.isImport = true) :
    ∃ b now, a = ⟨.event (.blockImport b), now⟩ := by
  obtain ⟨item, now⟩ := a
  cases item with
  | foreign => cases h
  | event e =>
    cases e with
    | announce n => cases h
    | blockImport b => exact ⟨b, now, rfl⟩

namespace Tracker

variable {t u : Tracker} {now : Int}

/-- The trackers agree on everything but names. -/
structure SameButNames (t u : Tracker) : Prop where
  ledger : t.ledger.seen .nameless = u.ledger.seen .nameless
  policy : t.policy = u.policy
  window : t.window = u.window

namespace SameButNames

theorem symm (h : t.SameButNames u) : u.SameButNames t :=
  ⟨h.ledger.symm, h.policy.symm, h.window.symm⟩

theorem trans {w : Tracker} (h : t.SameButNames u) (h' : u.SameButNames w) : t.SameButNames w :=
  ⟨h.ledger.trans h'.ledger, h.policy.trans h'.policy, h.window.trans h'.window⟩

/-! ### Imports -/

theorem swept (h : t.SameButNames u) (b : BlockImport) :
    (t.swept now (.event (.blockImport b))).seen .nameless
      = (u.swept now (.event (.blockImport b))).seen .nameless := by
  rw [Tracker.swept, Tracker.swept, h.policy]
  exact (Ledger.nameless_handle_congr h.ledger ..).1

theorem rows (h : t.SameButNames u) (b : BlockImport) :
    (t.step now (.event (.blockImport b))).2.map Row.nameless
      = (u.step now (.event (.blockImport b))).2.map Row.nameless := by
  rw [Tracker.step, Tracker.step, importBlock, importBlock, h.policy]
  exact (Ledger.nameless_handle_congr h.ledger ..).2

theorem evicted (h : t.SameButNames u) (b : BlockImport) :
    t.evicted now (.event (.blockImport b)) = u.evicted now (.event (.blockImport b)) := by
  rw [Tracker.evicted, Tracker.evicted, h.window]
  exact Ledger.keys_beyond_congr (Ledger.heights_congr (h.swept b))

theorem imported (h : t.SameButNames u) (b : BlockImport) :
    (t.step now (.event (.blockImport b))).1.SameButNames
      (u.step now (.event (.blockImport b))).1 := by
  refine ⟨?_, h.policy, h.window⟩
  rw [ledger_step_import, ledger_step_import, h.window]
  exact Ledger.seen_enforce_congr _ (h.swept b)

end SameButNames

/-! ### Runs -/

/-- What is no import leaves everything but names. -/
theorem sameButNames_of_not_import {a : Arrival} (ha : a.isImport = false) :
    (t.step a.now a.item).1.SameButNames t := by
  obtain ⟨item, now⟩ := a
  cases item with
  | foreign => exact ⟨rfl, rfl, rfl⟩
  | event e =>
    cases e with
    | announce n => exact ⟨rfl, rfl, rfl⟩
    | blockImport b => cases ha

/-- The imports among the arrivals do to another tracker what all the arrivals do to this one. -/
theorem SameButNames.after_imports (h : t.SameButNames u) (arrivals : List Arrival) :
    (t.after arrivals).SameButNames (u.after (arrivals.filter Arrival.isImport)) := by
  induction arrivals generalizing t u with
  | nil => exact h
  | cons a arrivals ih =>
    cases ha : a.isImport with
    | false =>
      rw [List.filter_cons_of_neg (by simp [ha])]
      exact ih ((sameButNames_of_not_import ha).trans h)
    | true =>
      rw [List.filter_cons_of_pos ha]
      obtain ⟨b, now, rfl⟩ := Arrival.exists_of_isImport ha
      exact ih (h.imported b)

theorem SameButNames.after (h : t.SameButNames u) {arrivals arrivals' : List Arrival}
    (himports : arrivals.filter Arrival.isImport = arrivals'.filter Arrival.isImport) :
    (t.after arrivals).SameButNames (u.after arrivals') := by
  have hleft := h.after_imports arrivals
  have hright := (⟨rfl, rfl, rfl⟩ : u.SameButNames u).after_imports arrivals'
  rw [himports] at hleft
  exact hleft.trans hright.symm

end Tracker

namespace Recorder

/-- The handling of a visit ends early. -/
def EndsEarly (r : Recorder) (v : Visit) : Prop :=
  r.storage.EndsEarly v.files (r.tracker.step v.arrival.now v.arrival.item).2 v.arrival.item

/-- The visit gives the rows back, or its handling ends early. -/
def GivesBack (r : Recorder) (v : Visit) (rows : List Row) : Prop :=
  (¬ r.EndsEarly v → (r.meet v).rows = .ok rows)
    ∧ (r.EndsEarly v → ∃ f, (r.meet v).rows = .error f)

theorem givesBack_step (r : Recorder) (v : Visit) :
    r.GivesBack v (r.tracker.step v.arrival.now v.arrival.item).2 :=
  ⟨fun hnot => (handled_of_not_endsEarly hnot).1, error_of_endsEarly⟩

/-- Two recorders begin with one ledger, policy and window and with any registries, and meet the
same imports at the same times, whatever else is announced to each, wherever they keep their files
and whatever these hold. Then their ledgers agree on everything but names, and so they do after
one more import, which evicts the same hashes from both and brings rows that agree on everything
but names. Each gives its rows back, unless the handling ends early. No import changes a registry,
and no announcement changes a ledger. -/
theorem same_but_names (registry₁ registry₂ : Registry) (ledger : Ledger) (policy : Policy)
    (window : Window) (storage₁ storage₂ : Storage) (visits₁ visits₂ : List Visit)
    (himports : (visits₁.map Visit.arrival).filter Arrival.isImport
      = (visits₂.map Visit.arrival).filter Arrival.isImport)
    (files₁ files₂ : FileTree) (b : BlockImport) (now : Int) :
    let r₁ := after ⟨⟨registry₁, ledger, policy, window⟩, storage₁⟩ visits₁
    let r₂ := after ⟨⟨registry₂, ledger, policy, window⟩, storage₂⟩ visits₂
    let item : Item := .event (.blockImport b)
    let brought (r : Recorder) := (r.tracker.step now item).2
    let o₁ := r₁.meet ⟨files₁, item, now⟩
    let o₂ := r₂.meet ⟨files₂, item, now⟩
    r₁.tracker.ledger.seen .nameless = r₂.tracker.ledger.seen .nameless
    ∧ o₁.recorder.tracker.ledger.seen .nameless = o₂.recorder.tracker.ledger.seen .nameless
    ∧ r₁.tracker.evicted now item = r₂.tracker.evicted now item
    ∧ (brought r₁).map Row.nameless = (brought r₂).map Row.nameless
    ∧ r₁.GivesBack ⟨files₁, item, now⟩ (brought r₁)
    ∧ r₂.GivesBack ⟨files₂, item, now⟩ (brought r₂)
    ∧ o₁.recorder.tracker.registry = r₁.tracker.registry
    ∧ ∀ files a later, (r₁.meet ⟨files, .event (.announce a), later⟩).recorder.tracker.ledger
      = r₁.tracker.ledger := by
  intro r₁ r₂ item brought o₁ o₂
  have hstart : Tracker.SameButNames ⟨registry₁, ledger, policy, window⟩
      ⟨registry₂, ledger, policy, window⟩ := ⟨rfl, rfl, rfl⟩
  have hsame : r₁.tracker.SameButNames r₂.tracker := by
    rw [tracker_after, tracker_after]
    exact hstart.after himports
  have ho₁ : o₁.recorder.tracker = (r₁.tracker.step now item).1 := tracker_meet ..
  have ho₂ : o₂.recorder.tracker = (r₂.tracker.step now item).1 := tracker_meet ..
  refine ⟨hsame.ledger, ?_, hsame.evicted b, hsame.rows b, givesBack_step .., givesBack_step ..,
    ?_, fun files a later => ?_⟩
  · rw [ho₁, ho₂]
    exact (hsame.imported b).ledger
  · rw [ho₁]
    rfl
  · rw [tracker_meet]
    rfl

/-- One block, reported by a node that was announced before or after. -/
def announcedFirst : List Visit :=
  [⟨.empty, .event (.announce ⟨1, "n", "i"⟩), 0⟩,
    ⟨.empty, .event (.blockImport ⟨1, 10, "a", 5⟩), 0⟩]

def announcedLast : List Visit :=
  [⟨.empty, .event (.blockImport ⟨1, 10, "a", 5⟩), 0⟩,
    ⟨.empty, .event (.announce ⟨1, "n", "i"⟩), 0⟩]

/-- A higher block closes the first and takes it out of the window. The row names the node if it
was announced before the report, and is otherwise the same. -/
theorem same_of_announcedLast :
    let window : Window := ⟨1, Nat.one_pos⟩
    let r₁ := after ⟨⟨.empty, .empty, ⟨3, 3, 1⟩, window⟩, ⟨none, none⟩⟩ announcedFirst
    let r₂ := after ⟨⟨.empty, .empty, ⟨3, 3, 1⟩, window⟩, ⟨none, none⟩⟩ announcedLast
    let v : Visit := ⟨.empty, .event (.blockImport ⟨2, 12, "b", 5⟩), 1⟩
    (r₁.meet v).rows = .ok [⟨0, "n", "i", 10, "a", some 5⟩]
    ∧ (r₂.meet v).rows = .ok [⟨0, "unknown_node_1", "unknown_id", 10, "a", some 5⟩]
    ∧ r₁.tracker.evicted 1 v.arrival.item = ["a"] ∧ r₂.tracker.evicted 1 v.arrival.item = ["a"]
    ∧ (r₁.meet v).recorder.tracker.ledger.seen .nameless
      = (r₂.meet v).recorder.tracker.ledger.seen .nameless := by
  intro window r₁ r₂ v
  obtain ⟨-, hledger, hevicted, -, hgives₁, hgives₂, -⟩ := same_but_names .empty .empty .empty
    ⟨3, 3, 1⟩ window ⟨none, none⟩ ⟨none, none⟩ announcedFirst announcedLast rfl .empty .empty
    ⟨2, 12, "b", 5⟩ 1
  have hnowhere : ∀ {s : Storage}, s = ⟨none, none⟩ → ∀ rows,
      ¬ s.EndsEarly v.files rows v.arrival.item := by
    rintro _ rfl rows (⟨o, ho, -⟩ | ⟨store, hstore, -⟩) <;> contradiction
  have hnot₁ : ¬ r₁.EndsEarly v := hnowhere (by decide +kernel) _
  have hnot₂ : ¬ r₂.EndsEarly v := hnowhere (by decide +kernel) _
  have hlost : r₁.tracker.evicted 1 v.arrival.item = ["a"] := by decide +kernel
  refine ⟨(hgives₁.1 hnot₁).trans ?_, (hgives₂.1 hnot₂).trans ?_, hlost,
    hevicted.symm.trans hlost, hledger⟩
  · decide +kernel
  · decide +kernel

/-- A node whose name is half of a pair, and its import. -/
def halfName : Message :=
  .text "[3,[1,[\"\\ud800\",\"x\",\"1\",null,\"id\"]],6,[1,[10,\"h\",0,0,5]]]"

/-- The name decides whether the row is given back. -/
theorem row_lost_of_halfName :
    (Frame.ofMessage halfName).events
      = [.announce ⟨1, [.surrogate 0], "id"⟩, .blockImport ⟨1, 10, "h", 5⟩]
    ∧ ∃ s, Session.open besidePlan .empty = .ok s
      ∧ ((s.after [⟨.event (.announce ⟨1, [.surrogate 0], "id"⟩), 7⟩]).apply
        ⟨.event (.blockImport ⟨1, 10, "h", 5⟩), 7⟩).rows = .error .unencodable
      ∧ ((s.after [⟨.event (.announce ⟨1, "n", "id"⟩), 7⟩]).apply
        ⟨.event (.blockImport ⟨1, 10, "h", 5⟩), 7⟩).rows = .ok [⟨7, "n", "id", 10, "h", some 5⟩] :=
  ⟨by decide +kernel, _, rfl, by decide +kernel, by decide +kernel⟩

end Recorder

end AuthorWatch
