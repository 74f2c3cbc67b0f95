import AuthorWatch.Proofs.Ledger.Eviction
import AuthorWatch.Proofs.Ledger.Sound
import AuthorWatch.Proofs.Ledger.Tallest

/-! The ledger of a recorder fits its window from the beginning on, and its tallest height never
falls: a window never takes out the first of the highest records, and an import adds a block or
counts one that is there. -/

namespace AuthorWatch

namespace Tracker

variable {t : Tracker} {now : Int} {item : Item}

/-! ### One item -/

/-- The window of an item leaves the crest that it finds. -/
theorem crest_step (t : Tracker) (now : Int) (item : Item) :
    (t.step now item).1.ledger.crest = (t.swept now item).crest := by
  cases hc : t.counted? now item with
  | some l => rw [(step_of_counted hc).1, swept_of_counted hc, Ledger.crest_enforce]
  | none =>
    rw [swept_of_not_counted hc]
    rcases (step_of_not_counted hc).1 with hl | hl <;> rw [hl]
    exact Ledger.crest_enforce ..

/-- An item that passed its checks makes the tallest height no lower. -/
theorem tallest_le_step (h : item.Checked) :
    t.ledger.tallest ≤ (t.step now item).1.ledger.tallest := by
  cases hc : t.counted? now item with
  | some l =>
    obtain ⟨b, rfl, -, rfl⟩ := counted?_eq_some_iff.mp hc
    rw [(step_of_counted hc).1, Ledger.tallest_enforce, Ledger.tallest_sweep]
    exact Ledger.tallest_le_count h.2.1 ..
  | none =>
    rcases (step_of_not_counted hc).1 with hl | hl <;> rw [hl]
    exact Int.le_of_eq (Ledger.tallest_enforce ..).symm

/-! ### Runs -/

theorem fits_after (h : t.Trimmed) (arrivals : List Arrival) :
    (t.after arrivals).ledger.size ≤ t.window.size := by
  have hafter : (t.after arrivals).Trimmed ∧ (t.after arrivals).window = t.window := by
    refine after_induction (P := fun u => u.Trimmed ∧ u.window = t.window) ⟨h, rfl⟩ ?_ arrivals
    rintro u now item ⟨hu, hwindow⟩
    exact ⟨trimmed_step hu, u.window_step.trans hwindow⟩
  rw [← hafter.2]
  exact hafter.1

theorem tallest_le_after (t : Tracker) {arrivals : List Arrival}
    (h : ∀ a ∈ arrivals, a.item.Checked) :
    t.ledger.tallest ≤ (t.after arrivals).ledger.tallest := by
  induction arrivals generalizing t with
  | nil => exact Int.le_refl _
  | cons a arrivals ih =>
    have hstep : t.ledger.tallest ≤ (t.step a.now a.item).1.ledger.tallest :=
      tallest_le_step (h a List.mem_cons_self)
    exact Int.le_trans hstep (ih _ fun b hb => h b (List.mem_cons_of_mem _ hb))

end Tracker

namespace Recorder

/-- The tracker of an opened recorder is made from what the snapshots hold. -/
theorem ofRestored_of_open {plan : Plan} {files : FileTree} {r : Recorder}
    (h : (Recorder.open plan files).recorder = .ok r) :
    ∃ storage, r = ⟨.ofRestored (Snapshot.loadRegistry files plan.nodes).1
      (Snapshot.loadLedger files plan.blocks).1 plan.policy plan.window, storage⟩ := by
  rcases hprepare : Output.prepare files plan.output Row.columns with ⟨prepared, output⟩
  simp only [Recorder.open, hprepare] at h
  cases output with
  | error e => cases h
  | ok output =>
    cases h
    exact ⟨_, rfl⟩

/-- A recorder over any registry and ledger that were restored, after any items: its ledger is no
larger than the window, from the beginning on. Further items that passed their checks leave its
tallest height or make it greater, since the first of the highest records is the same before and
after the window is applied, by the restoring and by every item. A recorder that is opened on
files, anew or once more with another window, is such a recorder. The counts and ages that notices
name are taken to have few enough digits to be written. -/
theorem bounded_and_rising (registry : Registry) (ledger : Ledger) (policy : Policy)
    (window : Window) (storage : Storage) (visits later : List Visit)
    (hlater : ∀ v ∈ later, v.arrival.item.Checked) :
    let r := after ⟨.ofRestored registry ledger policy window, storage⟩ visits
    r.tracker.ledger.size ≤ window.size
    ∧ r.tracker.ledger.tallest ≤ (r.after later).tracker.ledger.tallest
    ∧ (∀ v, (r.meet v).recorder.tracker.ledger.crest
      = (r.tracker.swept v.arrival.now v.arrival.item).crest)
    ∧ (Tracker.ofRestored registry ledger policy window).ledger.crest = ledger.crest
    ∧ ∀ plan files opened, (Recorder.open plan files).recorder = .ok opened →
      ∃ storage, opened = ⟨.ofRestored (Snapshot.loadRegistry files plan.nodes).1
        (Snapshot.loadLedger files plan.blocks).1 plan.policy plan.window, storage⟩ := by
  intro r
  refine ⟨?_, ?_, fun v => ?_, ledger.crest_enforce window, fun _ _ _ => ofRestored_of_open⟩
  · rw [tracker_after]
    exact Tracker.fits_after (Tracker.trimmed_ofRestored ..) _
  · rw [tracker_after r]
    refine Tracker.tallest_le_after _ fun a ha => ?_
    obtain ⟨v, hv, rfl⟩ := List.mem_map.mp ha
    exact hlater v hv
  · rw [tracker_meet]
    exact Tracker.crest_step ..

/-- Three records, the last two of one height. -/
def threeBlocks : Ledger := .ofPairs [("a", ⟨5, 0, some 4, [], 1, false⟩),
  ("b", ⟨7, 0, some 4, [], 1, false⟩), ("c", ⟨7, 0, some 4, [], 1, false⟩)]

/-- A lower block comes, then the highest under another height, and a block that was evicted. -/
def lowBlocks : List Visit :=
  [⟨.empty, .event (.blockImport ⟨1, 6, "d", 5⟩), 0⟩, ⟨.empty, .foreign, 0⟩,
    ⟨.empty, .event (.blockImport ⟨1, 2, "b", 5⟩), 1⟩,
    ⟨.empty, .event (.announce ⟨1, "n", "i"⟩), 1⟩,
    ⟨.empty, .event (.blockImport ⟨1, 5, "a", 5⟩), 1⟩]

/-- A window for one keeps the first of the two highest records when it is restored and whatever
comes; a higher block takes its place. -/
theorem bounded_of_lowBlocks :
    let one : Window := ⟨1, Nat.one_pos⟩
    let restored : Recorder := ⟨.ofRestored .empty threeBlocks ⟨3, 3, 1⟩ one, ⟨none, none⟩⟩
    let higher : Visit := ⟨.empty, .event (.blockImport ⟨2, 8, "e", 5⟩), 2⟩
    restored.tracker.ledger.crest.map Prod.fst = some ("b" : Text)
    ∧ (restored.after lowBlocks).tracker.ledger.size ≤ 1
    ∧ 7 ≤ (restored.after lowBlocks).tracker.ledger.tallest
    ∧ ((restored.after lowBlocks).meet higher).recorder.tracker.ledger.crest.map Prod.fst
      = some ("e" : Text) := by
  intro one restored higher
  obtain ⟨-, hrises, -, hcrest, -⟩ := bounded_and_rising .empty threeBlocks ⟨3, 3, 1⟩ one
    ⟨none, none⟩ [] lowBlocks (by decide)
  obtain ⟨hsize, -, hkept, -, -⟩ := bounded_and_rising .empty threeBlocks ⟨3, 3, 1⟩ one ⟨none, none⟩
    lowBlocks [] nofun
  refine ⟨?_, hsize, ?_, ?_⟩
  · rw [show restored.tracker.ledger.crest = threeBlocks.crest from hcrest]
    decide +kernel
  · exact Int.le_trans (by decide +kernel) hrises
  · rw [hkept higher]
    decide +kernel

end Recorder

end AuthorWatch
