import AuthorWatch.Proofs.Ledger.History
import AuthorWatch.Proofs.Ledger.View

/-! A policy decides when rows come out, and nothing else. Two trackers that differ in their
policies go on alike, record by record, but for what is finalized; and the tracker with the lower
thresholds has finalized whatever the other has. -/

namespace AuthorWatch

/-! ### Thresholds -/

namespace Policy

/-- No threshold is above that of the other policy. -/
structure AtMost (p q : Policy) : Prop where
  minReports : p.minReports ≤ q.minReports
  maxAge : p.maxAge ≤ q.maxAge
  maxLag : p.maxLag ≤ q.maxLag

theorem AtMost.met {p q : Policy} (h : p.AtMost q) {c : Record} {now tallest : Int}
    (hmet : q.Met c now tallest) : p.Met c now tallest := by
  obtain ⟨hreports, hage, hlag⟩ := h
  rcases hmet with hcount | hold | hbehind
  · exact .inl (by omega)
  · exact .inr (.inl (by omega))
  · exact .inr (.inr (by omega))

/-- No threshold looks at what is finalized. -/
theorem met_reopened (p : Policy) (c : Record) (now tallest : Int) :
    p.Met c.reopened now tallest ↔ p.Met c now tallest := Iff.rfl

end Policy

/-! ### Ledgers apart from what is finalized -/

/-- Everything of a record but whether it is finalized. -/
def Record.View.reopened : Record.View where
  record := Record.reopened
  reporter := id
  height_record _ := rfl
  record_fresh _ _ := rfl
  record_observe := Record.reopened_observe

/-- A sweep finalizes records and does nothing else to them. -/
theorem Ledger.reopened_sweep (l : Ledger) (policy : Policy) (now : Int) :
    (l.sweep policy now).seen .reopened = l.seen .reopened := by
  refine OrderedMap.eq_of_entries ?_
  rw [entries_seen, entries_seen, entries_sweep, List.map_map]
  refine List.map_congr_left fun entry _ => ?_
  by_cases hdue : policy.due now l.tallest entry.2
  · simp [hdue, Record.View.reopened, Record.reopened_close]
  · simp [hdue]

namespace Tracker

variable {t u : Tracker} {now : Int} {item : Item}

/-- The trackers agree on everything but their policies and what is finalized. -/
structure Alike (t u : Tracker) : Prop where
  registry : t.registry = u.registry
  ledger : t.ledger.seen .reopened = u.ledger.seen .reopened
  window : t.window = u.window

namespace Alike

theorem symm (h : t.Alike u) : u.Alike t := ⟨h.registry.symm, h.ledger.symm, h.window.symm⟩

/-- An import counts in both or in neither, and what is counted agrees. -/
theorem counted (h : t.Alike u) {l : Ledger} (hl : t.counted? now item = some l) :
    ∃ m, u.counted? now item = some m ∧ l.seen .reopened = m.seen .reopened := by
  obtain ⟨b, rfl, hb, rfl⟩ := counted?_eq_some_iff.mp hl
  refine ⟨_, counted?_eq_some_iff.mpr ⟨b, rfl, hb, rfl⟩, ?_⟩
  rw [Ledger.seen_count, Ledger.seen_count, h.registry, h.ledger]

theorem not_counted (h : t.Alike u) (hl : t.counted? now item = none) :
    u.counted? now item = none := by
  by_contra hu
  obtain ⟨m, hm⟩ := Option.ne_none_iff_exists'.mp hu
  obtain ⟨l, hl', -⟩ := h.symm.counted hm
  cases hl.symm.trans hl'

theorem swept (h : t.Alike u) :
    (t.swept now item).seen .reopened = (u.swept now item).seen .reopened := by
  cases hl : t.counted? now item with
  | none => rw [swept_of_not_counted hl, swept_of_not_counted (h.not_counted hl), h.ledger]
  | some l =>
    obtain ⟨m, hm, hlm⟩ := h.counted hl
    rw [swept_of_counted hl, swept_of_counted hm, Ledger.reopened_sweep, Ledger.reopened_sweep, hlm]

/-- The same hashes are evicted, in the same order. -/
theorem evicted (h : t.Alike u) (now : Int) (item : Item) :
    t.evicted now item = u.evicted now item := by
  cases item with
  | foreign => rfl
  | event e =>
    cases e with
    | announce a => rfl
    | blockImport b =>
      rw [Tracker.evicted, Tracker.evicted, h.window]
      exact Ledger.keys_beyond_congr (Ledger.heights_congr h.swept)

theorem step (h : t.Alike u) (now : Int) (item : Item) :
    (t.step now item).1.Alike (u.step now item).1 := by
  cases item with
  | foreign => exact h
  | event e =>
    cases e with
    | announce a =>
      exact ⟨congrArg (Registry.announce · a) h.registry, h.ledger, h.window⟩
    | blockImport b =>
      refine ⟨h.registry, ?_, h.window⟩
      rw [ledger_step_import, ledger_step_import, h.window]
      exact Ledger.seen_enforce_congr _ h.swept

end Alike

/-! ### What is finalized -/

/-- Whatever the second tracker holds finalized, the first holds finalized. -/
def Ahead (t u : Tracker) : Prop :=
  ∀ hash d, u.ledger.get? hash = some d → d.finalized = true →
    ∃ c, t.ledger.get? hash = some c ∧ c.finalized = true

/-- Counting finalizes nothing, so what it finds finalized was so before, in both. -/
theorem Ahead.before (h : t.Ahead u) {m : Ledger} {hash : Text} {d : Record}
    (hm : u.counted? now item = some m) (hd : m.get? hash = some d) (hfin : d.finalized = true) :
    ∃ c, t.ledger.get? hash = some c ∧ c.finalized = true := by
  have hbefore := finalized_of_counted hm hd
  cases hu : u.ledger.get? hash with
  | none =>
    rw [hu, hfin] at hbefore
    cases hbefore
  | some d₀ =>
    rw [hu, hfin] at hbefore
    exact h hash d₀ hu hbefore.symm

theorem Ahead.step (h : t.Ahead u) (halike : t.Alike u) (hpolicy : t.policy.AtMost u.policy)
    (now : Int) (item : Item) : (t.step now item).1.Ahead (u.step now item).1 := by
  intro hash d hd hfin
  obtain ⟨c, hc, -⟩ : ∃ c, (t.step now item).1.ledger.get? hash = some c
      ∧ c.reopened = d.reopened := by
    have hsame := Ledger.get?_congr (halike.step now item).ledger hash
    rw [hd, Option.map_some] at hsame
    exact Option.map_eq_some_iff.mp hsame
  refine ⟨c, hc, ?_⟩
  have hkept : (∃ c₀, t.ledger.get? hash = some c₀ ∧ c₀.finalized = true) → c.finalized = true :=
    fun ⟨c₀, hc₀, hfin₀⟩ => finalized_of_finalized hc₀ hfin₀ hc
  cases hl : t.counted? now item with
  | none => exact hkept (h hash d (get?_of_not_counted (halike.not_counted hl) hd) hfin)
  | some l =>
    obtain ⟨m, hm, hlm⟩ := halike.counted hl
    obtain ⟨c₁, hc₁, hfinc⟩ := finalized_iff_of_counted hl hc
    obtain ⟨d₁, hd₁, hfind⟩ := finalized_iff_of_counted hm hd
    rcases hfind.mp hfin with hbefore | hmet
    · exact hkept (h.before hm hd₁ hbefore)
    · have hsame : d₁.reopened = c₁.reopened := by
        have hget := Ledger.get?_congr hlm hash
        rw [hc₁, hd₁] at hget
        exact (Option.some.inj hget).symm
      rw [← Policy.met_reopened, hsame, Policy.met_reopened] at hmet
      rw [hfinc, Ledger.tallest_congr hlm]
      exact .inr (hpolicy.met hmet)

/-! ### Runs -/

/-- What every item keeps between two trackers holds after any number of items. -/
theorem after_induction₂ {R : Tracker → Tracker → Prop} (hstart : R t u)
    (hstep : ∀ t u now item, R t u → R (t.step now item).1 (u.step now item).1)
    (arrivals : List Arrival) : R (t.after arrivals) (u.after arrivals) := by
  induction arrivals generalizing t u with
  | nil => exact hstart
  | cons a arrivals ih => exact ih (hstep t u a.now a.item hstart)

theorem Alike.after (h : t.Alike u) (arrivals : List Arrival) :
    (t.after arrivals).Alike (u.after arrivals) :=
  after_induction₂ h (fun _ _ now item h => h.step now item) arrivals

theorem Ahead.after (h : t.Ahead u) (halike : t.Alike u) (hpolicy : t.policy.AtMost u.policy)
    (arrivals : List Arrival) : (t.after arrivals).Ahead (u.after arrivals) := by
  refine (after_induction₂ (R := fun t u => t.Ahead u ∧ t.Alike u ∧ t.policy.AtMost u.policy)
    ⟨h, halike, hpolicy⟩ ?_ arrivals).1
  rintro t u now item ⟨h, halike, hpolicy⟩
  refine ⟨h.step halike hpolicy now item, halike.step now item, ?_⟩
  rwa [policy_step, policy_step]

end Tracker

/-! ### Recorders -/

namespace Recorder

/-- From one registry, ledger and window, two recorders with any policies meet the same items,
wherever they keep their files and whatever these hold. Their registries, and their ledgers apart
from what is finalized, stay the same, and every further item takes the same hashes out of both.
If no threshold of the first is above that of the second, all that the second holds finalized the
first holds finalized. -/
theorem policy_only_finalizes (registry : Registry) (ledger : Ledger) (window : Window)
    (p q : Policy) (storage₁ storage₂ : Storage) (visits₁ visits₂ : List Visit)
    (hvisits : visits₁.map Visit.arrival = visits₂.map Visit.arrival) :
    let t := (after ⟨⟨registry, ledger, p, window⟩, storage₁⟩ visits₁).tracker
    let u := (after ⟨⟨registry, ledger, q, window⟩, storage₂⟩ visits₂).tracker
    t.registry = u.registry
    ∧ t.ledger.seen .reopened = u.ledger.seen .reopened
    ∧ (∀ now item, t.evicted now item = u.evicted now item)
    ∧ (p.AtMost q → ∀ hash d, u.ledger.get? hash = some d → d.finalized = true →
      ∃ c, t.ledger.get? hash = some c ∧ c.finalized = true) := by
  intro t u
  have ht : t = Tracker.after ⟨registry, ledger, p, window⟩ (visits₁.map Visit.arrival) :=
    tracker_after ..
  have hu : u = Tracker.after ⟨registry, ledger, q, window⟩ (visits₁.map Visit.arrival) := by
    rw [hvisits]
    exact tracker_after ..
  have hstart : Tracker.Alike ⟨registry, ledger, p, window⟩ ⟨registry, ledger, q, window⟩ :=
    ⟨rfl, rfl, rfl⟩
  have halike : t.Alike u := by
    rw [ht, hu]
    exact hstart.after _
  refine ⟨halike.registry, halike.ledger, halike.evicted, fun hpq => ?_⟩
  have hbegin : Tracker.Ahead ⟨registry, ledger, p, window⟩ ⟨registry, ledger, q, window⟩ :=
    fun hash d hd hfin => ⟨d, hd, hfin⟩
  have hahead : t.Ahead u := by
    rw [ht, hu]
    exact hbegin.after hstart hpq _
  exact hahead

/-- Two blocks, the second two higher, each with one report. -/
def twoBlocks (files : FileTree) : List Visit :=
  [⟨files, .event (.blockImport ⟨1, 10, "a", 5⟩), 0⟩,
    ⟨files, .event (.blockImport ⟨2, 12, "b", 5⟩), 1⟩]

/-- Whoever asks for three reports has finalized the block that fell behind, so whoever asks for
one has too; the other block is finalized for the second only. A third block evicts the first. -/
theorem finalized_of_twoBlocks :
    let window : Window := ⟨2, Nat.two_pos⟩
    let t := (after ⟨⟨.empty, .empty, ⟨1, 3, 1⟩, window⟩, ⟨none, none⟩⟩ (twoBlocks .empty)).tracker
    let u := (after ⟨⟨.empty, .empty, ⟨3, 3, 1⟩, window⟩, ⟨none, none⟩⟩
      (twoBlocks ⟨[(["nodes"], .directory)], []⟩)).tracker
    (u.ledger.get? "a").map Record.finalized = some true
    ∧ (t.ledger.get? "a").map Record.finalized = some true
    ∧ (u.ledger.get? "b").map Record.finalized = some false
    ∧ (t.ledger.get? "b").map Record.finalized = some true
    ∧ t.ledger.seen .reopened = u.ledger.seen .reopened
    ∧ t.evicted 2 (.event (.blockImport ⟨3, 13, "c", 5⟩)) = ["a"]
    ∧ u.evicted 2 (.event (.blockImport ⟨3, 13, "c", 5⟩)) = ["a"] := by
  intro window t u
  obtain ⟨-, hledger, hevicted, hahead⟩ := policy_only_finalizes .empty .empty window ⟨1, 3, 1⟩
    ⟨3, 3, 1⟩ ⟨none, none⟩ ⟨none, none⟩ (twoBlocks .empty)
    (twoBlocks ⟨[(["nodes"], .directory)], []⟩) rfl
  have hpolicy : Policy.AtMost ⟨1, 3, 1⟩ ⟨3, 3, 1⟩ := ⟨by decide, by decide, by decide⟩
  have hfin : (u.ledger.get? "a").map Record.finalized = some true := by decide +kernel
  obtain ⟨d, hd, hdfin⟩ := Option.map_eq_some_iff.mp hfin
  have hlost : t.evicted 2 (.event (.blockImport ⟨3, 13, "c", 5⟩)) = ["a"] := by decide +kernel
  refine ⟨hfin, ?_, by decide +kernel, by decide +kernel, hledger, hlost, ?_⟩
  · obtain ⟨c, hc, hcfin⟩ := hahead hpolicy "a" d hd hdfin
    rw [hc, Option.map_some, hcfin]
  · exact (hevicted ..).symm.trans hlost

end Recorder

end AuthorWatch
