import AuthorWatch.Proofs.Recorder.Run
import Mathlib.Order.Basic
import Mathlib.Data.Nat.Init

/-! Rows come out once in the lifetime of a record. A lifetime of a hash begins with an
accepted import while the ledger does not hold the hash, and ends with the arrival whose
window takes the record out. The invariant along a lifetime is that the record is
finalized exactly if the sweep of an earlier arrival of the lifetime found the policy
satisfied for it; so the first such sweep gives the rows and no later one can. -/

namespace AuthorWatch

namespace Record

/-- Somebody reported a lowest time. -/
def Listed (c : Record) : Prop := c.lowest.isSome ∧ c.reporters ≠ []

theorem listed_close {c : Record} : c.close.Listed ↔ c.Listed := Iff.rfl

theorem listed_observe {c : Record} {height firstSeen : Int}
    (h : c = fresh height firstSeen ∨ c.Listed) (reporter : Reporter) (time : Int) :
    (c.observe reporter time).Listed := by
  refine ⟨c.isSome_lowest_observe reporter time, c.reporters_observe_ne_nil reporter time ?_⟩
  rcases h with rfl | hlisted
  · exact fun hlow => by cases hlow
  · exact fun _ => hlisted.2

end Record

namespace Run

variable {r : Run} {hash : Text} {b n : ℕ} {a : Arrival} {c : Record}

/-- Arrival `n` is an accepted import of the hash. -/
def Imports (r : Run) (hash : Text) (n : ℕ) : Prop :=
  ∃ i now, r.arrivals[n]? = some ⟨.event (.blockImport i), now⟩ ∧ Ledger.accepts i = true
    ∧ i.hash = hash

/-- A lifetime of the hash begins with arrival `b`. -/
def Begins (r : Run) (hash : Text) (b : ℕ) : Prop :=
  r.Imports hash b ∧ (r.ledger b).contains hash = false

/-- The ledger holds the hash after arrival `b` and up to arrival `n`. -/
def Keeps (r : Run) (hash : Text) (b n : ℕ) : Prop :=
  ∀ m, b < m → m ≤ n → (r.ledger m).contains hash = true

/-- Arrival `n` falls into the lifetime of the hash that begins with arrival `b`. The
arrival that evicts the record is the last one of its lifetime. -/
structure InLifetime (r : Run) (hash : Text) (b n : ℕ) : Prop where
  begins : r.Begins hash b
  le : b ≤ n
  lt : n < r.arrivals.length
  keeps : r.Keeps hash b n

/-- Arrival `n` is an accepted import, and its sweep finds the policy satisfied for the
record `c` of the hash. -/
def Finds (r : Run) (hash : Text) (n : ℕ) (c : Record) : Prop :=
  ∃ a l, r.arrivals[n]? = some a ∧ (r.tracker n).counted? a.now a.item = some l
    ∧ l.get? hash = some c ∧ r.policy.Met c a.now l.tallest

/-- Arrival `n` is the first of its lifetime whose sweep finds the policy satisfied. -/
structure Closes (r : Run) (hash : Text) (b n : ℕ) (c : Record) : Prop where
  inLifetime : r.InLifetime hash b n
  finds : r.Finds hash n c
  first : ∀ m c', b ≤ m → m < n → ¬ r.Finds hash m c'

/-! ### What one arrival does -/

theorem finds_iff_of_counted {l : Ledger} (ha : r.arrivals[n]? = some a)
    (hl : (r.tracker n).counted? a.now a.item = some l) (hc : l.get? hash = some c) :
    (∃ c', r.Finds hash n c') ↔ r.policy.Met c a.now l.tallest := by
  constructor
  · rintro ⟨c', a', l', ha', hl', hc', hmet⟩
    cases ha.symm.trans ha'
    cases hl.symm.trans hl'
    cases hc.symm.trans hc'
    exact hmet
  · intro hmet
    exact ⟨c, a, l, ha, hl, hc, hmet⟩

/-- A record is finalized after an arrival if it was before, or if the sweep closed it. -/
theorem finalized_succ (ha : r.arrivals[n]? = some a) (hc : (r.ledger (n + 1)).get? hash = some c) :
    c.finalized = true ↔ (∃ c₀, (r.ledger n).get? hash = some c₀ ∧ c₀.finalized = true)
      ∨ ∃ c', r.Finds hash n c' := by
  rw [ledger_succ ha] at hc
  cases hl : (r.tracker n).counted? a.now a.item with
  | none =>
    have hold : (r.ledger n).get? hash = some c := Tracker.get?_of_not_counted hl hc
    have hquiet : ¬ ∃ c', r.Finds hash n c' := by
      rintro ⟨c', a', l', ha', hl', -⟩
      cases ha.symm.trans ha'
      cases hl.symm.trans hl'
    simp [hold, hquiet]
  | some l =>
    obtain ⟨d, hd, hfin⟩ := Tracker.finalized_iff_of_counted hl hc
    have hf : d.finalized = ((r.ledger n).get? hash).elim false Record.finalized :=
      Tracker.finalized_of_counted hl hd
    have hbefore : d.finalized = true
        ↔ ∃ c₀, (r.ledger n).get? hash = some c₀ ∧ c₀.finalized = true := by
      rw [hf]
      cases (r.ledger n).get? hash <;> simp
    rw [finds_iff_of_counted ha hl hd, ← hbefore, ← r.policy_tracker n]
    exact hfin

/-- Every record that a run makes has a lowest time and somebody who reported it. -/
theorem listed (n : ℕ) : ∀ hash c, (r.ledger n).get? hash = some c → c.Listed := by
  refine session_induction (P := fun s => ∀ hash c,
    s.recorder.tracker.ledger.get? hash = some c → c.Listed) ?_ ?_ n
  · intro hash c hc
    cases hc
  · intro s a hold hash c hc
    rw [Session.tracker_next] at hc
    exact Tracker.forall_step hold (fun _ h => h) (fun b d _ hd => Record.listed_observe hd _ _)
      (fun _ => Record.listed_close.mpr) hc

theorem listed_of_finds (h : r.Finds hash n c) : c.Listed := by
  obtain ⟨a, l, -, hl, hc, -⟩ := h
  exact Tracker.forall_counted (listed n) (fun _ h => h)
    (fun b d _ hd => Record.listed_observe hd _ _) hl hc

/-- The ledger comes to hold a hash by an accepted import of it. -/
theorem imports_of_new (ha : r.arrivals[n]? = some a) (hold : (r.ledger n).get? hash = none)
    {l : Ledger} (hl : (r.tracker n).counted? a.now a.item = some l) (hc : l.get? hash = some c) :
    r.Imports hash n := by
  obtain ⟨item, now⟩ := a
  obtain ⟨i, rfl, hi, hh⟩ := Tracker.imports_of_new hl hold hc
  exact ⟨i, now, ha, hi, hh⟩

/-! ### Lifetimes along a run -/

theorem keeps_succ (h : r.Keeps hash b n) (hn : (r.ledger (n + 1)).contains hash = true) :
    r.Keeps hash b (n + 1) := by
  intro m hbm hmn
  rcases Nat.lt_or_ge n m with hlt | hle
  · rwa [show m = n + 1 by omega]
  · exact h m hbm hle

/-- A hash that the ledger holds has a lifetime that goes on. -/
theorem exists_begins (n : ℕ) (h : (r.ledger n).contains hash = true) :
    ∃ b, b < n ∧ r.Begins hash b ∧ r.Keeps hash b n := by
  induction n with
  | zero => cases h
  | succ n ih =>
    cases hold : (r.ledger n).contains hash with
    | true =>
      obtain ⟨b, hb, hbegins, hkeeps⟩ := ih hold
      exact ⟨b, by omega, hbegins, keeps_succ hkeeps h⟩
    | false =>
      have hnone := (OrderedMap.not_contains_iff _ _).mp hold
      obtain ⟨c, hc⟩ := (OrderedMap.contains_iff _ _).mp h
      by_cases hn : n < r.arrivals.length
      · obtain ⟨a, ha⟩ := getElem?_of_lt hn
        rw [ledger_succ ha] at hc
        cases hl : (r.tracker n).counted? a.now a.item with
        | none => exact absurd (hnone.symm.trans (Tracker.get?_of_not_counted hl hc)) (by simp)
        | some l =>
          obtain ⟨d, hd, -⟩ := Tracker.get?_of_counted hl hc
          refine ⟨n, by omega, ⟨imports_of_new ha hnone hl hd, hold⟩, fun m hm hmn => ?_⟩
          rwa [show m = n + 1 by omega]
      · rw [ledger_succ_of_length_le (by omega)] at hc
        exact absurd (hnone.symm.trans hc) (by simp)

/-- Along a lifetime a record is finalized exactly if a sweep of it found the policy
satisfied. -/
theorem finalized_iff (hb : r.Begins hash b) (hbn : b < n) (hn : n ≤ r.arrivals.length)
    (hkeeps : r.Keeps hash b n) (hc : (r.ledger n).get? hash = some c) :
    c.finalized = true ↔ ∃ m c', b ≤ m ∧ m < n ∧ r.Finds hash m c' := by
  induction n, hbn using Nat.le_induction generalizing c with
  | base =>
    obtain ⟨a, ha⟩ := getElem?_of_lt (r := r) (n := b) (by omega)
    have hnone := (OrderedMap.not_contains_iff _ _).mp hb.2
    rw [finalized_succ ha hc, hnone]
    constructor
    · rintro (⟨c₀, hc₀, -⟩ | ⟨c', hc'⟩)
      · cases hc₀
      · exact ⟨b, c', Nat.le_refl b, by omega, hc'⟩
    · rintro ⟨m, c', hbm, hm, hc'⟩
      rw [show m = b by omega] at hc'
      exact .inr ⟨c', hc'⟩
  | succ n hbn ih =>
    obtain ⟨a, ha⟩ := getElem?_of_lt (r := r) (n := n) (by omega)
    have hkeeps' : r.Keeps hash b n := fun m hbm hmn => hkeeps m hbm (by omega)
    obtain ⟨d, hd⟩ := (OrderedMap.contains_iff _ _).mp (hkeeps n hbn (by omega))
    rw [finalized_succ ha hc, hd]
    constructor
    · rintro (⟨c₀, hc₀, hfin⟩ | ⟨c', hc'⟩)
      · cases hc₀
        obtain ⟨m, c', hbm, hm, hc'⟩ := (ih (by omega) hkeeps' hd).mp hfin
        exact ⟨m, c', hbm, by omega, hc'⟩
      · exact ⟨n, c', by omega, by omega, hc'⟩
    · rintro ⟨m, c', hbm, hm, hc'⟩
      rcases Nat.lt_or_ge m n with hlt | hge
      · exact .inl ⟨d, rfl, (ih (by omega) hkeeps' hd).mpr ⟨m, c', hbm, hlt, hc'⟩⟩
      · rw [show m = n by omega] at hc'
        exact .inr ⟨c', hc'⟩

/-- An arrival belongs to one lifetime of a hash. -/
theorem begins_unique {b' : ℕ} (h : r.InLifetime hash b n) (h' : r.InLifetime hash b' n) :
    b = b' := by
  rcases Nat.lt_trichotomy b b' with hlt | heq | hgt
  · have hheld := h.keeps b' hlt h'.le
    rw [h'.begins.2] at hheld
    cases hheld
  · exact heq
  · have hheld := h'.keeps b hgt h.le
    rw [h.begins.2] at hheld
    cases hheld

/-- Before the first sweep that finds the policy satisfied the record is open. -/
theorem open_of_closes (h : r.Closes hash b n c) :
    ((r.ledger n).get? hash).elim false Record.finalized = false := by
  rcases Nat.lt_or_ge b n with hbn | hnb
  · obtain ⟨d, hd⟩ := (OrderedMap.contains_iff _ _).mp (h.inLifetime.keeps n hbn (Nat.le_refl n))
    have hiff := finalized_iff h.inLifetime.begins hbn (Nat.le_of_lt h.inLifetime.lt)
      h.inLifetime.keeps hd
    rw [hd, Option.elim_some, ← Bool.not_eq_true, hiff]
    rintro ⟨m, c', hbm, hmn, hf⟩
    exact h.first m c' hbm hmn hf
  · have heq : n = b := Nat.le_antisymm hnb h.inLifetime.le
    have hnone := (OrderedMap.not_contains_iff _ _).mp h.inLifetime.begins.2
    rw [heq, hnone]
    rfl

/-- The closing arrival gives one row for each reporter that its sweep found. -/
theorem rows_of_closes (h : r.Closes hash b n c) {rows : List Row} (hr : r.Returns n rows) :
    rows.filter (fun row => row.hash = hash) = c.rows hash := by
  obtain ⟨a, l, ha, hl, hc, hmet⟩ := h.finds
  have hopen : c.finalized = false := (Tracker.finalized_of_counted hl hc).trans (open_of_closes h)
  rw [rows_of_returns ha hr, Tracker.rows_of_counted hl hc, if_pos]
  rw [policy_tracker, Policy.due_iff]
  exact ⟨hopen, hmet⟩

/-- An arrival that gives rows for a hash closes a lifetime of it. -/
theorem closes_of_rows {rows : List Row} (hr : r.Returns n rows)
    (hrows : rows.filter (fun row => row.hash = hash) ≠ []) : ∃ b c, r.Closes hash b n c := by
  obtain ⟨a, ha, -⟩ := id hr
  rw [rows_of_returns ha hr] at hrows
  obtain ⟨l, c, hl, hc, hopen, hmet⟩ := Tracker.exists_due_of_rows hrows
  rw [policy_tracker] at hmet
  have hn : n < r.arrivals.length := (List.getElem?_eq_some_iff.mp ha).1
  have hfinds : r.Finds hash n c := ⟨a, l, ha, hl, hc, hmet⟩
  have hfin : ((r.ledger n).get? hash).elim false Record.finalized = false :=
    (Tracker.finalized_of_counted hl hc).symm.trans hopen
  cases hold : (r.ledger n).contains hash with
  | false =>
    have hnone := (OrderedMap.not_contains_iff _ _).mp hold
    refine ⟨n, c, ⟨⟨imports_of_new ha hnone hl hc, hold⟩, Nat.le_refl n, hn, ?_⟩, hfinds, ?_⟩
    · intro m hnm hmn; omega
    · intro m c' hnm hmn; omega
  | true =>
    obtain ⟨b, hbn, hbegins, hkeeps⟩ := exists_begins n hold
    obtain ⟨d, hd⟩ := (OrderedMap.contains_iff _ _).mp hold
    refine ⟨b, c, ⟨hbegins, by omega, hn, hkeeps⟩, hfinds, fun m c' hbm hmn hf => ?_⟩
    rw [hd, Option.elim_some, ← Bool.not_eq_true,
      finalized_iff hbegins hbn (Nat.le_of_lt hn) hkeeps hd] at hfin
    exact hfin ⟨m, c', hbm, hmn, hf⟩

/-- In each lifetime of a hash at most one arrival gives rows for it. An arrival that does
is the first of its lifetime whose sweep finds the policy satisfied for the record; it
gives one row for each reporter then listed, and afterwards the record stays finalized
until it is evicted. Rows are lost only if one has no encoding or a snapshot has no name. -/
theorem rows_once_per_lifetime (r : Run) (hash : Text) :
    (∀ b n m rows rows', r.InLifetime hash b n → r.InLifetime hash b m →
      r.Returns n rows → r.Returns m rows' →
      rows.filter (fun row => row.hash = hash) ≠ [] →
      rows'.filter (fun row => row.hash = hash) ≠ [] → n = m)
    ∧ (∀ n rows, r.Returns n rows → rows.filter (fun row => row.hash = hash) ≠ [] →
      ∃ b c, r.Closes hash b n c)
    ∧ (∀ b n c, r.Closes hash b n c →
      c.reporters ≠ [] ∧ c.lowest.isSome
      ∧ (∀ rows, r.Returns n rows → rows.filter (fun row => row.hash = hash)
          = c.reporters.map fun reporter =>
              ⟨reporter.seen, reporter.name, reporter.nodeId, c.height, hash, c.lowest⟩)
      ∧ (∀ m, n < m → m ≤ r.arrivals.length → r.Keeps hash b m →
          ∃ c', (r.ledger m).get? hash = some c' ∧ c'.finalized = true)
      ∧ (∀ m rows, n < m → r.InLifetime hash b m → r.Returns m rows →
          rows.filter (fun row => row.hash = hash) = []))
    ∧ (∀ n a, r.arrivals[n]? = some a →
      (∀ s ∈ r.storage.store, s.Named) →
      (r.storage.output ≠ none →
        ∀ row ∈ ((r.tracker n).step a.now a.item).2, Output.fault? row.cells = none) →
      ∃ rows, r.Returns n rows) := by
  -- whoever gives rows closes the lifetime, so a later one would not be the first
  have hlate : ∀ b n m c rows, r.Closes hash b n c → n < m → r.InLifetime hash b m →
      r.Returns m rows → rows.filter (fun row => row.hash = hash) = [] := by
    intro b n m c rows hn hnm hm hr
    by_contra hrows
    obtain ⟨b', c', hc'⟩ := closes_of_rows hr hrows
    have hb : b' = b := begins_unique hc'.inLifetime hm
    subst hb
    exact hc'.first n c hn.inLifetime.le hnm hn.finds
  refine ⟨?_, fun n rows hr hrows => closes_of_rows hr hrows, ?_, ?_⟩
  · intro b n m rows rows' hn hm hr hr' hrows hrows'
    obtain ⟨b₁, c₁, h₁⟩ := closes_of_rows hr hrows
    obtain ⟨b₂, c₂, h₂⟩ := closes_of_rows hr' hrows'
    cases begins_unique h₁.inLifetime hn
    cases begins_unique h₂.inLifetime hm
    rcases Nat.lt_trichotomy n m with hlt | heq | hgt
    · exact absurd (hlate b n m c₁ rows' h₁ hlt hm hr') hrows'
    · exact heq
    · exact absurd (hlate b m n c₂ rows h₂ hgt hn hr) hrows
  · intro b n c h
    refine ⟨(listed_of_finds h.finds).2, (listed_of_finds h.finds).1,
      fun rows hr => rows_of_closes h hr, ?_, fun m rows hnm hm hr => hlate b n m c rows h hnm hm hr⟩
    intro m hnm hm hkeeps
    have hbm : b < m := Nat.lt_of_le_of_lt h.inLifetime.le hnm
    obtain ⟨c', hc'⟩ := (OrderedMap.contains_iff _ _).mp (hkeeps m hbm (Nat.le_refl m))
    exact ⟨c', hc', (finalized_iff h.inLifetime.begins hbm hm hkeeps hc').mpr
      ⟨n, c, h.inLifetime.le, hnm, h.finds⟩⟩
  · intro n a ha hstore hrows
    obtain ⟨hkept, houtput⟩ := r.storage_session n
    rw [← Option.isSome_iff_ne_none, ← houtput, Option.isSome_iff_ne_none] at hrows
    exact ⟨_, a, ha, Recorder.process_returns _ _ _ _ (by rwa [hkept]) hrows⟩

/-- Three nodes report a block, two of them at the lowest time, and a fourth comes late. -/
def threeReports : Run where
  policy := ⟨3, 3, 1⟩
  window := ⟨1, Nat.one_pos⟩
  storage := ⟨none, none⟩
  files := .empty
  arrivals := [⟨.event (.blockImport ⟨1, 7, "b", 40⟩), 0⟩,
    ⟨.event (.blockImport ⟨2, 7, "b", 40⟩), 1⟩, ⟨.event (.blockImport ⟨3, 7, "b", 50⟩), 2⟩,
    ⟨.event (.blockImport ⟨4, 7, "b", 10⟩), 9⟩]

theorem threeReports_inLifetime (n : ℕ) (hn : n < 4) : threeReports.InLifetime "b" 0 n where
  begins := ⟨⟨_, _, rfl, rfl, rfl⟩, rfl⟩
  le := Nat.zero_le n
  lt := hn
  keeps m h0 hm := by
    have hcases : m = 1 ∨ m = 2 ∨ m = 3 := by omega
    rcases hcases with rfl | rfl | rfl <;> rfl

/-- The third report closes the record with two reporters, and the fourth brings nothing. -/
theorem rows_once_of_threeReports : ∃ c rows, threeReports.Closes "b" 0 2 c
    ∧ threeReports.Returns 2 rows
    ∧ rows.filter (fun row => row.hash = ("b" : Text))
        = c.reporters.map (fun reporter =>
            ⟨reporter.seen, reporter.name, reporter.nodeId, c.height, "b", c.lowest⟩)
    ∧ c.reporters.map Reporter.ordinal = [1, 2]
    ∧ ∀ rows, threeReports.Returns 3 rows →
      rows.filter (fun row => row.hash = ("b" : Text)) = [] := by
  have hfirst : ∀ m c, 0 ≤ m → m < 2 → ¬ threeReports.Finds "b" m c := by
    rintro m c - hm ⟨a, l, ha, hl, hc, hmet⟩
    have hcases : m = 0 ∨ m = 1 := by omega
    rcases hcases with rfl | rfl <;> cases ha <;> cases hl <;> cases hc <;>
      simp only [Policy.Met] at hmet <;> revert hmet <;> decide
  obtain ⟨c, hc, hreporters⟩ : ∃ c, threeReports.Closes "b" 0 2 c
      ∧ c.reporters.map Reporter.ordinal = [1, 2] :=
    ⟨_, ⟨threeReports_inLifetime 2 (by decide), ⟨_, _, rfl, rfl, rfl, .inl (by decide)⟩, hfirst⟩,
      rfl⟩
  obtain ⟨-, -, hcloses, hreturns⟩ := rows_once_per_lifetime threeReports "b"
  obtain ⟨-, -, hrows, -, hlate⟩ := hcloses 0 2 c hc
  obtain ⟨rows, hr⟩ := hreturns 2 _ rfl (fun s hs => by cases hs) fun h => absurd rfl h
  exact ⟨c, rows, hc, hr, hrows rows hr, hreporters,
    fun late hr' => hlate 3 late (by decide) (threeReports_inLifetime 3 (by decide)) hr'⟩

end Run

end AuthorWatch
