import AuthorWatch.Proofs.Ledger.Eviction

/-! A block is logged once, unless it is forgotten. The ledger knows that a block was logged by
the finalized record alone. The record stays until a window takes it out, and the hash stays away
until somebody reports it again: only then rows can come out for it once more. -/

namespace AuthorWatch

/-- The item is an accepted import of the hash. -/
def Item.Imports (item : Item) (hash : Text) : Prop :=
  ∃ b, item = .event (.blockImport b) ∧ Ledger.accepts b = true ∧ b.hash = hash

namespace Tracker

variable {t : Tracker} {now : Int} {item : Item} {l : Ledger} {hash : Text} {c : Record}

/-- The ledger holds a finalized record of the hash. -/
def Settled (t : Tracker) (hash : Text) : Prop :=
  ∃ c, t.ledger.get? hash = some c ∧ c.finalized = true

/-- The window takes out a finalized record of the hash. -/
def Forgets (t : Tracker) (now : Int) (item : Item) (hash : Text) : Prop :=
  ∃ c, t.Evicts now item hash c ∧ c.finalized = true

/-! ### What an item does to a finalized record, and to a hash without a record -/

theorem settled_or_forgets_of_swept (hc : (t.swept now item).get? hash = some c)
    (hf : c.finalized = true) :
    (t.step now item).1.Settled hash ∨ t.Forgets now item hash := by
  cases hleft : (t.step now item).1.ledger.get? hash with
  | none => exact .inr ⟨c, ⟨hc, hleft⟩, hf⟩
  | some d =>
    cases hc.symm.trans (get?_swept hleft)
    exact .inl ⟨c, hleft, hf⟩

/-- A finalized record stays, or the window takes it out. -/
theorem settled_or_forgets (h : t.Settled hash) :
    (t.step now item).1.Settled hash ∨ t.Forgets now item hash := by
  obtain ⟨c, hc, hf⟩ := h
  cases hl : t.counted? now item with
  | none =>
    rw [← swept_of_not_counted hl] at hc
    exact settled_or_forgets_of_swept hc hf
  | some l =>
    obtain ⟨d, hd⟩ : ∃ d, l.get? hash = some d := by
      obtain ⟨b, -, -, rfl⟩ := counted?_eq_some_iff.mp hl
      rw [Ledger.get?_count]
      split
      · exact ⟨_, rfl⟩
      · exact ⟨c, hc⟩
    have hfin : d.finalized = true := by rw [finalized_of_counted hl hd, hc, Option.elim_some, hf]
    refine settled_or_forgets_of_swept (c := if t.policy.due now l.tallest d then d.close else d)
      ?_ ?_
    · rw [swept_of_counted hl, Ledger.get?_sweep, hd, Option.map_some]
    · split
      · rfl
      · exact hfin

/-- What brings rows for a hash finalizes its record. -/
theorem settled_or_forgets_of_rows
    (h : (t.step now item).2.filter (fun row => row.hash = hash) ≠ []) :
    (t.step now item).1.Settled hash ∨ t.Forgets now item hash := by
  obtain ⟨l, d, hl, hd, hopen, hmet⟩ := exists_due_of_rows h
  refine settled_or_forgets_of_swept (c := d.close) ?_ rfl
  rw [swept_of_counted hl, Ledger.get?_sweep, hd, Option.map_some,
    if_pos ((t.policy.due_iff ..).mpr ⟨hopen, hmet⟩)]

/-- A hash without a record gets one by an accepted import only. -/
theorem absent_or_imports (h : t.ledger.get? hash = none) :
    (t.step now item).1.ledger.get? hash = none ∨ item.Imports hash := by
  cases hleft : (t.step now item).1.ledger.get? hash with
  | none => exact .inl rfl
  | some c =>
    cases hl : t.counted? now item with
    | none => exact absurd (h.symm.trans (get?_of_not_counted hl hleft)) (by simp)
    | some l =>
      obtain ⟨d, hd, -⟩ := get?_of_counted hl hleft
      exact .inr (imports_of_new hl h hd)

theorem imports_of_rows (h : t.ledger.get? hash = none)
    (hrows : (t.step now item).2.filter (fun row => row.hash = hash) ≠ []) :
    item.Imports hash := by
  obtain ⟨l, d, hl, hd, -, -⟩ := exists_due_of_rows hrows
  exact imports_of_new hl h hd

end Tracker

namespace Recorder

variable {r : Recorder} {visits : List Visit} {v : Visit} {hash : Text} {n m k : ℕ}

/-- The recorder that visit `n` finds. -/
def before (r : Recorder) (visits : List Visit) (n : ℕ) : Recorder := r.after (visits.take n)

/-- Visit `n` gives rows back. -/
def Returns (r : Recorder) (visits : List Visit) (n : ℕ) (rows : List Row) : Prop :=
  ∃ v, visits[n]? = some v ∧ ((r.before visits n).meet v).rows = .ok rows

/-- Visit `k` takes a finalized record of the hash out of the ledger. -/
def Forgets (r : Recorder) (visits : List Visit) (hash : Text) (k : ℕ) : Prop :=
  ∃ v, visits[k]? = some v
    ∧ (r.before visits k).tracker.Forgets v.arrival.now v.arrival.item hash

/-- Visit `j` is an accepted import of the hash. -/
def Imports (visits : List Visit) (hash : Text) (j : ℕ) : Prop :=
  ∃ v, visits[j]? = some v ∧ v.arrival.item.Imports hash

/-- The ledger holds no record of the hash after visit `k` and up to visit `j`. -/
def Absent (r : Recorder) (visits : List Visit) (hash : Text) (k j : ℕ) : Prop :=
  ∀ i, k < i → i ≤ j → (r.before visits i).tracker.ledger.get? hash = none

/-- Visit `k` takes a finalized record of the hash out of the ledger, and visit `j` starts
another one. -/
structure Renews (r : Recorder) (visits : List Visit) (hash : Text) (k j : ℕ) : Prop where
  lt : k < j
  forgets : r.Forgets visits hash k
  absent : r.Absent visits hash k j
  imports : Imports visits hash j

theorem tracker_before_succ (h : visits[n]? = some v) : (r.before visits (n + 1)).tracker
    = ((r.before visits n).tracker.step v.arrival.now v.arrival.item).1 := by
  rw [← tracker_meet, before, List.take_add_one, h, after, List.foldl_append]
  rfl

theorem rows_of_returns {rows : List Row} (h : r.Returns visits n rows) :
    ∃ v, visits[n]? = some v
      ∧ rows = ((r.before visits n).tracker.step v.arrival.now v.arrival.item).2 := by
  obtain ⟨v, hv, hrows⟩ := h
  exact ⟨v, hv, rows_of_process_ok hrows⟩

/-- From rows for a hash on, its finalized record stays until a window takes it out. -/
theorem settled_until {rows : List Row} (hn : r.Returns visits n rows)
    (hrows : rows.filter (fun row => row.hash = hash) ≠ []) (hnm : n < m)
    (hm : m ≤ visits.length) :
    (r.before visits m).tracker.Settled hash
      ∨ ∃ k, n ≤ k ∧ k < m ∧ r.Forgets visits hash k := by
  induction m, hnm using Nat.le_induction with
  | base =>
    obtain ⟨v, hv, rfl⟩ := rows_of_returns hn
    rw [tracker_before_succ hv]
    exact (Tracker.settled_or_forgets_of_rows hrows).imp_right
      fun hforgets => ⟨n, le_rfl, n.lt_succ_self, v, hv, hforgets⟩
  | succ m hnm ih =>
    rcases ih (by omega) with hsettled | ⟨k, hnk, hkm, hforgets⟩
    · have hv := List.getElem?_eq_getElem (show m < visits.length by omega)
      rw [tracker_before_succ hv]
      exact (Tracker.settled_or_forgets hsettled).imp_right
        fun hforgets => ⟨m, by omega, m.lt_succ_self, _, hv, hforgets⟩
    · exact .inr ⟨k, hnk, by omega, hforgets⟩

/-- From an eviction on, the hash stays away until it is imported. -/
theorem absent_until (hk : r.Forgets visits hash k) (hkm : k < m) (hm : m ≤ visits.length) :
    r.Absent visits hash k m
      ∨ ∃ j, k < j ∧ j < m ∧ r.Absent visits hash k j ∧ Imports visits hash j := by
  induction m, hkm using Nat.le_induction with
  | base =>
    obtain ⟨v, hv, c, hevicts, -⟩ := hk
    refine .inl fun i hki hi => ?_
    rw [show i = k + 1 by omega, tracker_before_succ hv]
    exact hevicts.2
  | succ m hkm ih =>
    rcases ih (by omega) with habsent | ⟨j, hkj, hjm, habsent, himports⟩
    · have hv := List.getElem?_eq_getElem (show m < visits.length by omega)
      rcases Tracker.absent_or_imports (habsent m hkm le_rfl) with hnone | himports
      · refine .inl fun i hki hi => ?_
        rcases Nat.lt_or_ge m i with hmi | him
        · rw [show i = m + 1 by omega, tracker_before_succ hv]
          exact hnone
        · exact habsent i hki him
      · exact .inr ⟨m, hkm, m.lt_succ_self, habsent, _, hv, himports⟩
    · exact .inr ⟨j, hkj, by omega, habsent, himports⟩

/-- A recorder with anything in memory, any items and any files. After rows for a hash its record
is finalized for as long as it is kept; and rows for the hash come again only if a window took
that record out, and an accepted import started another one, since. -/
theorem rows_once_unless_renewed {rows rows' : List Row} (hnm : n < m)
    (hn : r.Returns visits n rows) (hm : r.Returns visits m rows')
    (hrows : rows.filter (fun row => row.hash = hash) ≠ []) :
    ((r.before visits m).tracker.Settled hash ∨ ∃ k, n ≤ k ∧ k < m ∧ r.Forgets visits hash k)
    ∧ (rows'.filter (fun row => row.hash = hash) = []
      ∨ ∃ k j, n ≤ k ∧ j ≤ m ∧ r.Renews visits hash k j) := by
  obtain ⟨v, hv, rfl⟩ := rows_of_returns hm
  have hlength : m < visits.length := (List.getElem?_eq_some_iff.mp hv).1
  have hkept := settled_until hn hrows hnm (Nat.le_of_lt hlength)
  refine ⟨hkept, or_iff_not_imp_left.mpr fun hrows' => ?_⟩
  rcases hkept with ⟨c, hc, hf⟩ | ⟨k, hnk, hkm, hforgets⟩
  · exact absurd (Tracker.rows_of_finalized hc hf) hrows'
  · rcases absent_until hforgets hkm (Nat.le_of_lt hlength) with
      habsent | ⟨j, hkj, hjm, habsent, himports⟩
    · have himports := Tracker.imports_of_rows (habsent m hkm le_rfl) hrows'
      exact ⟨k, m, hnk, le_rfl, hkm, hforgets, habsent, v, hv, himports⟩
    · exact ⟨k, j, hnk, Nat.le_of_lt hjm, hkj, hforgets, habsent, himports⟩

/-- One report is enough, and the window holds one block. -/
def oneReport : Recorder := ⟨.ofRestored .empty .empty ⟨1, 3, 1⟩ ⟨1, Nat.one_pos⟩, ⟨none, none⟩⟩

/-- A higher block takes a block out that another node reports late. -/
def lateReport : List Visit :=
  [⟨.empty, .event (.blockImport ⟨1, 10, "a", 5⟩), 0⟩,
    ⟨.empty, .event (.blockImport ⟨1, 20, "b", 5⟩), 1⟩,
    ⟨.empty, .event (.blockImport ⟨2, 10, "a", 7⟩), 2⟩]

/-- The row of the first report of the block. -/
def firstRow : Row := ⟨0, "unknown_node_1", "unknown_id", 10, "a", some 5⟩

/-- The row of the late report. -/
def lateRow : Row := ⟨2, "unknown_node_2", "unknown_id", 10, "a", some 7⟩

/-- The late report is logged once more. -/
theorem logged_again_of_lateReport : oneReport.Returns lateReport 0 [firstRow]
    ∧ oneReport.Returns lateReport 2 [lateRow] ∧ firstRow.hash = lateRow.hash :=
  ⟨⟨_, rfl, by decide +kernel⟩, ⟨_, rfl, by decide +kernel⟩, rfl⟩

theorem renewed_of_lateReport : ∃ k j, 0 ≤ k ∧ j ≤ 2 ∧ oneReport.Renews lateReport "a" k j := by
  have hfirst : oneReport.Returns lateReport 0 [firstRow] := ⟨_, rfl, by decide +kernel⟩
  have hlate : oneReport.Returns lateReport 2 [lateRow] := ⟨_, rfl, by decide +kernel⟩
  have hrows : [firstRow].filter (fun row => row.hash = ("a" : Text)) ≠ [] := by decide
  exact (rows_once_unless_renewed (by decide) hfirst hlate hrows).2.resolve_left (by decide)

end Recorder

end AuthorWatch
