import AuthorWatch.Proofs.Ledger.Tallest
import AuthorWatch.Proofs.Recorder.Process

/-! A sweep finalizes all that is due and changes nothing else. Then no open record satisfies the
policy, and none did at an earlier time or beside a lower block. So a sweep that comes after it
with no later time finds nothing to do, and neither does one after the window of an import, since
a window leaves the tallest height. -/

namespace AuthorWatch

/-- What satisfies a policy still does later and beside a taller block. -/
theorem Policy.Met.mono {p : Policy} {c : Record} {now later tallest taller : Int}
    (h : p.Met c now tallest) (hnow : now ≤ later) (htall : tallest ≤ taller) :
    p.Met c later taller := by
  rcases h with hcount | hold | hbehind
  · exact .inl hcount
  · exact .inr (.inl (by omega))
  · exact .inr (.inr (by omega))

namespace Ledger

variable {l : Ledger} {policy : Policy} {now before : Int} {entry : Text × Record}

/-! ### Ledgers with nothing due -/

/-- No open record satisfies the policy. -/
def Clear (l : Ledger) (policy : Policy) (now : Int) : Prop :=
  ∀ entry ∈ l.entries, entry.2.finalized = false → ¬ policy.Met entry.2 now l.tallest

namespace Clear

theorem earlier (h : l.Clear policy now) (hle : before ≤ now) : l.Clear policy before :=
  fun entry hentry hopen hmet => h entry hentry hopen (hmet.mono hle (Int.le_refl _))

theorem enforce (h : l.Clear policy now) (window : Window) :
    (l.enforce window).Clear policy now := by
  intro entry hentry hopen
  rw [tallest_enforce]
  exact h entry ((l.sublist_enforce window).mem hentry) hopen

theorem not_due (h : l.Clear policy now) (hentry : entry ∈ l.entries) :
    ¬ policy.due now l.tallest entry.2 = true := by
  rw [Policy.due_iff]
  rintro ⟨hopen, hmet⟩
  exact h entry hentry hopen hmet

theorem sweep_eq (h : l.Clear policy now) : l.sweep policy now = l := by
  have hsame : ∀ entry ∈ l.entries, (entry.1,
      if policy.due now l.tallest entry.2 then entry.2.close else entry.2) = entry :=
    fun entry hentry => by rw [if_neg (h.not_due hentry)]
  refine OrderedMap.eq_of_entries ?_
  rw [entries_sweep]
  exact (List.map_congr_left hsame).trans (List.map_id' _)

theorem sweepRows_eq (h : l.Clear policy now) : l.sweepRows policy now = [] := by
  have hnone : l.due policy now = [] := List.filter_eq_nil_iff.mpr fun entry => h.not_due
  rw [sweepRows, hnone]
  rfl

end Clear

/-! ### What a sweep does -/

/-- What a sweep does to an entry: an open record that satisfies the policy is finalized, and
nothing else changes. -/
structure Sweeps (policy : Policy) (now tallest : Int) (x y : Text × Record) : Prop where
  hash : y.1 = x.1
  rest : y.2 = { x.2 with finalized := y.2.finalized }
  finalized : y.2.finalized = true
    ↔ x.2.finalized = true ∨ x.2.finalized = false ∧ policy.Met x.2 now tallest

theorem sweeps_sweep (l : Ledger) (policy : Policy) (now : Int) :
    List.Forall₂ (Sweeps policy now l.tallest) l.entries (l.sweep policy now).entries := by
  rw [entries_sweep, List.forall₂_map_right_iff, List.forall₂_same]
  rintro ⟨hash, c⟩ -
  by_cases hdue : policy.due now l.tallest c
  · rw [if_pos hdue]
    exact ⟨rfl, rfl, fun _ => .inr ((policy.due_iff ..).mp hdue), fun _ => rfl⟩
  · rw [if_neg hdue]
    refine ⟨rfl, rfl, .inl, ?_⟩
    rintro (hfin | hmet)
    · exact hfin
    · exact absurd ((policy.due_iff ..).mpr hmet) hdue

theorem clear_sweep (l : Ledger) (policy : Policy) (now : Int) :
    (l.sweep policy now).Clear policy now := by
  intro entry hentry hopen
  rw [entries_sweep] at hentry
  obtain ⟨⟨hash, c⟩, -, rfl⟩ := List.mem_map.mp hentry
  rw [tallest_sweep]
  by_cases hdue : policy.due now l.tallest c
  · rw [if_pos hdue] at hopen
    cases hopen
  · rw [if_neg hdue] at hopen ⊢
    exact fun hmet => hdue ((policy.due_iff ..).mpr ⟨hopen, hmet⟩)

/-- The entries that are finalized in the second ledger and open in the first. -/
def newlyFinalized (l swept : Ledger) : List (Text × Record) :=
  swept.entries.filter fun entry =>
    entry.2.finalized && (l.get? entry.1).any fun c => !c.finalized

/-- The rows of a sweep are those of the records that it finalizes, in their order. -/
theorem sweepRows_eq (l : Ledger) (policy : Policy) (now : Int) : l.sweepRows policy now
    = (l.newlyFinalized (l.sweep policy now)).flatMap fun entry => entry.2.rows entry.1 := by
  rw [sweepRows, newlyFinalized, entries_sweep, List.filter_map, List.flatMap_map]
  have hdue : l.due policy now = l.entries.filter ((fun entry : Text × Record =>
      entry.2.finalized && (l.get? entry.1).any fun c => !c.finalized) ∘ fun entry =>
        (entry.1, if policy.due now l.tallest entry.2 then entry.2.close else entry.2)) := by
    refine List.filter_congr fun entry hentry => ?_
    have hget : l.get? entry.1 = some entry.2 := (l.mem_entries_iff ..).mp hentry
    simp only [Function.comp, hget, Option.any_some]
    by_cases hdue : policy.due now l.tallest entry.2
    · have hopen := ((policy.due_iff ..).mp hdue).1
      simp [hdue, hopen, Record.close]
    · simp [hdue]
  rw [← hdue]
  refine List.flatMap_congr fun entry _ => ?_
  show entry.2.rows entry.1
    = Record.rows (if policy.due now l.tallest entry.2 then entry.2.close else entry.2) entry.1
  split
  · rfl
  · rfl

/-! ### Sweeping again -/

theorem Clear.nothing (h : l.Clear policy now) (hle : before ≤ now) :
    l.sweepRows policy before = [] ∧ l.sweep policy before = l :=
  ⟨(h.earlier hle).sweepRows_eq, (h.earlier hle).sweep_eq⟩

/-- An accepted import leaves nothing due: its sweep takes care of that, and its window leaves it
so. -/
theorem clear_process (r : Recorder) (files : FileTree) {b : BlockImport}
    (hb : accepts b = true) (now : Int) :
    (r.process files (.event (.blockImport b)) now).recorder.tracker.ledger.Clear
      r.tracker.policy now := by
  have hcounted : r.tracker.counted? now (.event (.blockImport b)) = some _ :=
    Tracker.counted?_eq_some_iff.mpr ⟨b, rfl, hb, rfl⟩
  rw [Recorder.tracker_process, (Tracker.step_of_counted hcounted).1]
  exact Clear.enforce (clear_sweep _ _ _) _

/-- A sweep finalizes the records that are open and satisfy the policy beside the tallest block,
changes nothing else, and gives the rows of these records in the order of the ledger. Then no open
record satisfies the policy, so a sweep at that time or before brings nothing and changes nothing.
An accepted import leaves its ledger so when its window is done too. The counts and ages that
notices name are taken to have few enough digits to be written. -/
theorem sweep_complete (l : Ledger) (policy : Policy) (now : Int) :
    let swept := l.sweep policy now
    List.Forall₂ (Sweeps policy now l.tallest) l.entries swept.entries
    ∧ l.sweepRows policy now
      = (l.newlyFinalized swept).flatMap (fun entry => entry.2.rows entry.1)
    ∧ swept.Clear policy now
    ∧ (∀ before ≤ now, swept.sweepRows policy before = [] ∧ swept.sweep policy before = swept)
    ∧ ∀ (r : Recorder) files b, accepts b = true →
      let left := (r.process files (.event (.blockImport b)) now).recorder.tracker.ledger
      left.Clear r.tracker.policy now
      ∧ ∀ before ≤ now, left.sweepRows r.tracker.policy before = []
        ∧ left.sweep r.tracker.policy before = left := by
  intro swept
  have hclear : swept.Clear policy now := l.clear_sweep policy now
  refine ⟨l.sweeps_sweep policy now, l.sweepRows_eq policy now, hclear,
    fun before hle => hclear.nothing hle, fun r files b hb => ?_⟩
  have hleft := clear_process r files hb now
  exact ⟨hleft, fun before hle => hleft.nothing hle⟩

/-- One record has enough reports, one is young, one has fallen behind, one is finalized. -/
def mixedBlocks : Ledger := .ofPairs [
  ("a", ⟨10, 9, some 5, [⟨1, "n", "i", 9⟩, ⟨2, "m", "j", 9⟩], 3, false⟩),
  ("b", ⟨10, 9, some 5, [⟨1, "n", "i", 9⟩], 1, false⟩),
  ("c", ⟨5, 9, some 7, [⟨3, "o", "k", 9⟩], 1, false⟩),
  ("d", ⟨10, 0, some 5, [⟨1, "n", "i", 9⟩], 9, true⟩)]

/-- The first and the third come out, at once and not again. A block ten higher closes the young
one too, and a window for two then leaves nothing due. -/
theorem sweep_of_mixedBlocks :
    let policy : Policy := ⟨3, 3, 1⟩
    let swept := mixedBlocks.sweep policy 10
    let two : Window := ⟨2, Nat.two_pos⟩
    let r : Recorder := ⟨.ofRestored .empty mixedBlocks policy two, ⟨none, none⟩⟩
    let left := (r.process .empty (.event (.blockImport ⟨3, 20, "e", 5⟩)) 10).recorder.tracker.ledger
    mixedBlocks.sweepRows policy 10
      = [⟨9, "n", "i", 10, "a", some 5⟩, ⟨9, "m", "j", 10, "a", some 5⟩,
        ⟨9, "o", "k", 5, "c", some 7⟩]
    ∧ swept.entries.map (fun entry => entry.2.finalized) = [true, false, true, true]
    ∧ swept.Clear policy 10
    ∧ swept.sweepRows policy 9 = [] ∧ swept.sweep policy 9 = swept
    ∧ left.keys = ["a", "e"] ∧ left.sweepRows policy 9 = [] ∧ left.sweep policy 9 = left := by
  intro policy swept two r left
  obtain ⟨-, hrows, hclear, hagain, himport⟩ := sweep_complete mixedBlocks policy 10
  obtain ⟨hnone, hsame⟩ := hagain 9 (by decide)
  obtain ⟨hnone', hsame'⟩ := (himport r .empty ⟨3, 20, "e", 5⟩ rfl).2 9 (by decide)
  exact ⟨hrows.trans (by decide +kernel), by decide +kernel, hclear, hnone, hsame,
    by decide +kernel, hnone', hsame'⟩

end Ledger

end AuthorWatch
