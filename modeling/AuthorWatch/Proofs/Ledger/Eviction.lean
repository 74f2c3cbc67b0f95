import AuthorWatch.Proofs.Ledger.Heights
import AuthorWatch.Proofs.Recorder.Visit
import Mathlib.Data.List.Perm.Subperm

/-! Eviction loses nothing that is due. The sweep of an accepted import comes before its
window and knows the new block, so an open record that the window takes out was not due; and
whatever the window keeps is at least as high. No other item takes a record out, since a
ledger fits its window between items. -/

namespace AuthorWatch

namespace Ledger

/-- An evicted entry leaves a full window of entries that are at least as high, so together
they are more than fit. -/
theorem lt_countP_of_evicted {l : Ledger} {window : Window} {y : Text × Record} {bound : Int}
    (hy : y ∈ l.entries) (hout : y ∉ (l.enforce window).entries) (hbound : bound ≤ y.2.height) :
    window.size < l.entries.countP fun entry => bound ≤ entry.2.height := by
  -- only heights matter, so the order among equals is left open
  obtain ⟨hfull, hranked⟩ := @outranks_of_evicted l window (fun _ _ => True) y
    (List.pairwise_of_forall fun _ _ => trivial) hy hout
  have hsub : (y :: (l.enforce window).entries).Subperm l.entries := by
    refine List.subperm_of_subset (List.nodup_cons.mpr ⟨hout, ?_⟩) ?_
    · exact List.Nodup.of_map Prod.fst (l.enforce window).distinct
    · exact List.cons_subset.mpr ⟨hy, List.filter_subset_self ..⟩
  have hall : (y :: (l.enforce window).entries).countP (fun entry => bound ≤ entry.2.height)
      = window.size + 1 := by
    rw [List.countP_eq_length.mpr, List.length_cons]
    · exact congrArg (· + 1) hfull
    · intro entry hentry
      rw [decide_eq_true_eq]
      rcases List.mem_cons.mp hentry with rfl | hkept
      · exact hbound
      · exact Int.le_trans hbound (height_le_of_outranks (hranked entry hkept))
  have hle := hsub.countP_le fun entry => bound ≤ entry.2.height
  omega

end Ledger

namespace Tracker

variable {t : Tracker} {now : Int} {item : Item} {l : Ledger} {hash : Text} {c : Record}

/-! ### Between items -/

/-- The ledger fits the window. -/
def Trimmed (t : Tracker) : Prop := t.ledger.size ≤ t.window.size

theorem trimmed_ofRestored (registry : Registry) (ledger : Ledger) (policy : Policy)
    (window : Window) : (ofRestored registry ledger policy window).Trimmed :=
  ledger.size_enforce_le window

theorem trimmed_step (h : t.Trimmed) : (t.step now item).1.Trimmed := by
  rw [Trimmed, window_step]
  cases hc : t.counted? now item with
  | some l =>
    rw [(step_of_counted hc).1]
    exact Ledger.size_enforce_le ..
  | none =>
    rcases (step_of_not_counted hc).1 with hl | hl <;> rw [hl]
    · exact h
    · exact Ledger.size_enforce_le ..

/-- An item that is no accepted import changes no record. -/
theorem ledger_of_not_counted (h : t.Trimmed) (hc : t.counted? now item = none) :
    (t.step now item).1.ledger = t.ledger := by
  rcases (step_of_not_counted hc).1 with hl | hl <;> rw [hl]
  exact Ledger.enforce_of_size_le h

/-! ### What an item evicts -/

/-- The ledger just before the window is applied: an import has been handled by then. -/
def swept (t : Tracker) (now : Int) : Item → Ledger
  | .event (.blockImport b) => (t.ledger.handle t.registry t.policy b now).1
  | _ => t.ledger

/-- The record is there just before the window is applied, and gone after the item. -/
def Evicts (t : Tracker) (now : Int) (item : Item) (hash : Text) (c : Record) : Prop :=
  (t.swept now item).get? hash = some c ∧ (t.step now item).1.ledger.get? hash = none

theorem swept_of_counted (h : t.counted? now item = some l) :
    t.swept now item = l.sweep t.policy now := by
  obtain ⟨b, rfl, hb, rfl⟩ := counted?_eq_some_iff.mp h
  simp [swept, Ledger.handle, hb]

theorem swept_of_not_counted (h : t.counted? now item = none) : t.swept now item = t.ledger := by
  cases item with
  | foreign => rfl
  | event e =>
    cases e with
    | announce a => rfl
    | blockImport b =>
      have hb : Ledger.accepts b = false := by simpa [counted?] using h
      simp [swept, Ledger.handle, hb]

/-- What is there after an item was there just before the window was applied. -/
theorem get?_swept (h : (t.step now item).1.ledger.get? hash = some c) :
    (t.swept now item).get? hash = some c := by
  cases hl : t.counted? now item with
  | none =>
    rw [swept_of_not_counted hl]
    exact get?_of_not_counted hl h
  | some l =>
    rw [(step_of_counted hl).1] at h
    rw [swept_of_counted hl]
    exact Ledger.get?_of_get?_enforce h

/-- Only an accepted import evicts. -/
theorem exists_counted_of_evicts (h : t.Trimmed) (he : t.Evicts now item hash c) :
    ∃ l, t.counted? now item = some l := by
  obtain ⟨hin, hout⟩ := he
  cases hc : t.counted? now item with
  | some l => exact ⟨l, rfl⟩
  | none =>
    rw [ledger_of_not_counted h hc] at hout
    rw [swept_of_not_counted hc, hout] at hin
    cases hin

/-- What is evicted while it is open was not due. -/
theorem not_met_of_evicts (h : t.Trimmed) (he : t.Evicts now item hash c)
    (hopen : c.finalized = false) : ¬ t.policy.Met c now (t.swept now item).tallest := by
  obtain ⟨l, hl⟩ := exists_counted_of_evicts h he
  have hin := he.1
  rw [swept_of_counted hl, Ledger.get?_sweep, Option.map_eq_some_iff] at hin
  obtain ⟨d, -, hd⟩ := hin
  rw [swept_of_counted hl, Ledger.tallest_sweep]
  intro hmet
  split at hd
  · cases hd
    cases hopen
  next hdue =>
    cases hd
    exact hdue ((t.policy.due_iff ..).mpr ⟨hopen, hmet⟩)

theorem lt_countP_of_evicts (h : t.Trimmed) (he : t.Evicts now item hash c) {bound : Int}
    (hbound : bound ≤ c.height) :
    t.window.size < (t.swept now item).entries.countP fun entry => bound ≤ entry.2.height := by
  obtain ⟨l, hl⟩ := exists_counted_of_evicts h he
  obtain ⟨hin, hout⟩ := he
  rw [(step_of_counted hl).1, ← swept_of_counted hl] at hout
  refine Ledger.lt_countP_of_evicted (y := (hash, c)) ?_ ?_ hbound
  · exact (OrderedMap.mem_entries_iff _ hash c).mpr hin
  · rw [OrderedMap.mem_entries_iff, hout]
    exact nofun

end Tracker

namespace Recorder

/-- A recorder over anything that was restored, after any items. A record that an item evicts
while it is open has not fallen behind the tallest block of the ledger before the eviction,
has too few reports and is young; so if no more records than the window holds are that high,
then no open record is evicted. An item that is no accepted import leaves the ledger as it is. -/
theorem not_due_of_evicted (registry : Registry) (ledger : Ledger) (policy : Policy)
    (window : Window) (storage : Storage) (visits : List Visit) (v : Visit) :
    let r := after ⟨.ofRestored registry ledger policy window, storage⟩ visits
    let swept := r.tracker.swept v.arrival.now v.arrival.item
    let left := (r.meet v).recorder.tracker.ledger
    (∀ hash c, swept.get? hash = some c → left.get? hash = none → c.finalized = false →
      swept.tallest - policy.maxLag ≤ c.height ∧ c.count < policy.minReports
        ∧ v.arrival.now - c.firstSeen ≤ policy.maxAge)
    ∧ (swept.entries.countP (fun entry => swept.tallest - policy.maxLag ≤ entry.2.height)
        ≤ window.size →
      ∀ hash c, swept.get? hash = some c → left.get? hash = none → c.finalized = true)
    ∧ ((∀ b, v.arrival.item = .event (.blockImport b) → Ledger.accepts b = false) →
      left = r.tracker.ledger) := by
  intro r swept left
  have htrimmed : r.tracker.Trimmed ∧ r.tracker.policy = policy ∧ r.tracker.window = window := by
    rw [tracker_after]
    refine Tracker.after_induction (P := fun t => t.Trimmed ∧ t.policy = policy ∧ t.window = window)
      ⟨Tracker.trimmed_ofRestored .., rfl, rfl⟩ ?_ _
    rintro t now item ⟨ht, hp, hw⟩
    exact ⟨Tracker.trimmed_step ht, t.policy_step.trans hp, t.window_step.trans hw⟩
  obtain ⟨ht, hpolicy, hwindow⟩ := htrimmed
  have hleft : left = (r.tracker.step v.arrival.now v.arrival.item).1.ledger :=
    congrArg Tracker.ledger (r.tracker_meet v)
  have hopen : ∀ hash c, swept.get? hash = some c → left.get? hash = none → c.finalized = false →
      swept.tallest - policy.maxLag ≤ c.height ∧ c.count < policy.minReports
        ∧ v.arrival.now - c.firstSeen ≤ policy.maxAge := by
    intro hash c hin hout hfin
    have hmet := Tracker.not_met_of_evicts ht ⟨hin, hleft ▸ hout⟩ hfin
    rw [hpolicy, Policy.Met] at hmet
    simp only [not_or, Int.not_le, Int.not_lt] at hmet
    exact ⟨hmet.2.2, hmet.1, hmet.2.1⟩
  refine ⟨hopen, fun hfew hash c hin hout => ?_, fun hitem => ?_⟩
  · by_contra hfin
    have hbound := (hopen hash c hin hout (by simpa using hfin)).1
    have hmany := Tracker.lt_countP_of_evicts ht ⟨hin, hleft ▸ hout⟩ hbound
    rw [hwindow] at hmany
    exact absurd hfew (Nat.not_le.mpr hmany)
  · rw [hleft]
    refine Tracker.ledger_of_not_counted ht ?_
    by_contra hcounted
    obtain ⟨l, hl⟩ := Option.ne_none_iff_exists'.mp hcounted
    obtain ⟨b, hb, haccepts, -⟩ := Tracker.counted?_eq_some_iff.mp hl
    rw [hitem b hb] at haccepts
    cases haccepts

/-- One record, in a window that has no place for another. -/
def oneBlock : Recorder :=
  after ⟨.ofRestored .empty .empty ⟨3, 3, 1⟩ ⟨1, Nat.one_pos⟩, ⟨none, none⟩⟩
    [⟨.empty, .event (.blockImport ⟨1, 10, "a", 5⟩), 0⟩]

/-- A block one higher evicts the record while it is open and not due. A block two higher
finds it due and evicts it finalized. An announcement evicts nothing. -/
theorem not_due_of_oneBlock :
    (∃ c, (oneBlock.tracker.swept 1 (.event (.blockImport ⟨2, 11, "b", 5⟩))).get? "a" = some c
      ∧ c.finalized = false ∧ 10 ≤ c.height ∧ c.count < 3 ∧ 1 - c.firstSeen ≤ 3)
    ∧ (∃ c, (oneBlock.tracker.swept 1 (.event (.blockImport ⟨2, 12, "b", 5⟩))).get? "a" = some c
      ∧ c.finalized = true)
    ∧ (oneBlock.meet ⟨.empty, .event (.announce ⟨3, "c", "d"⟩), 1⟩).recorder.tracker.ledger
      = oneBlock.tracker.ledger := by
  have hall := not_due_of_evicted .empty .empty ⟨3, 3, 1⟩ ⟨1, Nat.one_pos⟩ ⟨none, none⟩
    [⟨.empty, .event (.blockImport ⟨1, 10, "a", 5⟩), 0⟩]
  refine ⟨⟨_, rfl, rfl, ?_⟩, ⟨_, rfl, ?_⟩, ?_⟩
  · exact (hall ⟨.empty, .event (.blockImport ⟨2, 11, "b", 5⟩), 1⟩).1 "a" _ rfl rfl rfl
  · exact (hall ⟨.empty, .event (.blockImport ⟨2, 12, "b", 5⟩), 1⟩).2.1 (by decide) "a" _ rfl rfl
  · exact (hall ⟨.empty, .event (.announce ⟨3, "c", "d"⟩), 1⟩).2.2 nofun

end Recorder

end AuthorWatch
