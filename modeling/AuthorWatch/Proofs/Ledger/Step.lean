import AuthorWatch.Tracker
import AuthorWatch.Proofs.OrderedMap
import Mathlib.Tactic.Common

/-! What one item does to the record of a hash and which rows it brings for it. Only an
accepted import counts anything: it counts its own record, the sweep over the counted
ledger closes what is due, and the window then takes records away and changes none. -/

namespace AuthorWatch

namespace Policy

/-- Count, age or lag asks for a record to be finalized. -/
def Met (p : Policy) (r : Record) (now tallest : Int) : Prop :=
  p.minReports ≤ r.count ∨ p.maxAge < now - r.firstSeen ∨ r.height < tallest - p.maxLag

theorem holds_iff (p : Policy) (r : Record) (now tallest : Int) :
    p.holds r now tallest = true ↔ p.Met r now tallest := by
  simp [holds, Met, or_assoc]

theorem due_iff (p : Policy) (r : Record) (now tallest : Int) :
    p.due now tallest r = true ↔ r.finalized = false ∧ p.Met r now tallest := by
  simp [due, holds_iff]

end Policy

namespace Record

/-- What one report does to a record. -/
theorem observe_cases (r : Record) (reporter : Reporter) (time : Int) :
    (r.lowers time = true ∧ r.observe reporter time
        = { r with count := r.count + 1, lowest := some time, reporters := [reporter] })
    ∨ (r.lowers time = false ∧ r.joins reporter.ordinal time = true ∧ r.observe reporter time
        = { r with count := r.count + 1, reporters := r.reporters ++ [reporter] })
    ∨ (r.lowers time = false ∧ r.joins reporter.ordinal time = false
        ∧ r.observe reporter time = { r with count := r.count + 1 }) := by
  unfold observe
  cases r.lowers time <;> cases r.joins reporter.ordinal time <;> simp

theorem lowers_iff {r : Record} {time : Int} :
    r.lowers time = true ↔ ∀ low ∈ r.lowest, time < low := by
  cases hlow : r.lowest with
  | none => simp [lowers, hlow]
  | some low => simp [lowers, hlow]

theorem exists_of_not_lowers {r : Record} {time : Int} (h : r.lowers time = false) :
    ∃ low, r.lowest = some low ∧ low ≤ time := by
  cases hlow : r.lowest with
  | none => simp [lowers, hlow] at h
  | some low => exact ⟨low, rfl, by simpa [lowers, hlow] using h⟩

@[simp] theorem finalized_observe (r : Record) (reporter : Reporter) (time : Int) :
    (r.observe reporter time).finalized = r.finalized := by
  rcases r.observe_cases reporter time with ⟨-, h⟩ | ⟨-, -, h⟩ | ⟨-, -, h⟩ <;> rw [h]

/-- A report leaves the lower of two times. -/
theorem lowest_observe (r : Record) (reporter : Reporter) (time : Int) :
    (r.observe reporter time).lowest = some (r.lowest.elim time (min · time)) := by
  have hkept (h : r.lowers time = false) : r.lowest = some (r.lowest.elim time (min · time)) := by
    obtain ⟨low, hlow, hle⟩ := exists_of_not_lowers h
    rw [hlow, Option.elim_some, Int.min_eq_left hle]
  rcases r.observe_cases reporter time with ⟨hlow, h⟩ | ⟨hnot, -, h⟩ | ⟨hnot, -, h⟩ <;> rw [h]
  · cases hold : r.lowest with
    | none => rfl
    | some low =>
      have hlt := lowers_iff.mp hlow low hold
      rw [Option.elim_some, Int.min_eq_right (Int.le_of_lt hlt)]
  · exact hkept hnot
  · exact hkept hnot

theorem isSome_lowest_observe (r : Record) (reporter : Reporter) (time : Int) :
    (r.observe reporter time).lowest.isSome := by rw [lowest_observe, Option.isSome_some]

/-- After a report somebody is listed, if every lowest time before it had its reporter. -/
theorem reporters_observe_ne_nil (r : Record) (reporter : Reporter) (time : Int)
    (h : r.lowest.isSome → r.reporters ≠ []) : (r.observe reporter time).reporters ≠ [] := by
  rcases r.observe_cases reporter time with ⟨-, ho⟩ | ⟨-, -, ho⟩ | ⟨hl, -, ho⟩ <;> rw [ho]
  · simp
  · simp
  · obtain ⟨low, hlow, -⟩ := exists_of_not_lowers hl
    exact h (hlow ▸ rfl)

theorem hash_of_mem_rows {r : Record} {hash : Text} {row : Row} (h : row ∈ r.rows hash) :
    row.hash = hash := by
  obtain ⟨reporter, -, rfl⟩ := List.mem_map.mp h
  rfl

end Record

namespace Ledger

variable (l : Ledger) (policy : Policy) (now : Int)

theorem get?_count (registry : Registry) (b : BlockImport) (hash : Text) :
    (l.count registry b now).get? hash
      = if b.hash = hash then
          some ((l.recordFor b now).observe (reporterFor registry b now) b.propagation)
        else l.get? hash := by
  rw [count, OrderedMap.get?_insert]

/-- What a report brings about and other records keep holds of all records after a count. -/
theorem forall_count {l : Ledger} {now : Int} {registry : Registry} {b : BlockImport} {hash : Text}
    {r : Record} {P Q : Record → Prop} (hold : ∀ hash c, l.get? hash = some c → P c)
    (hkeep : ∀ c, P c → Q c)
    (hobserve : ∀ c, c = .fresh b.height now ∨ P c →
      Q (c.observe (reporterFor registry b now) b.propagation))
    (hr : (l.count registry b now).get? hash = some r) : Q r := by
  rw [get?_count] at hr
  split at hr
  next =>
    cases hr
    refine hobserve _ ?_
    rw [recordFor]
    cases hg : l.get? b.hash with
    | none => exact .inl rfl
    | some c => exact .inr (hold b.hash c hg)
  next => exact hkeep r (hold hash r hr)

theorem entries_sweep :
    (l.sweep policy now).entries = l.entries.map fun entry =>
      (entry.1, if policy.due now l.tallest entry.2 then entry.2.close else entry.2) := rfl

theorem get?_sweep (hash : Text) :
    (l.sweep policy now).get? hash
      = (l.get? hash).map fun r => if policy.due now l.tallest r then r.close else r := by
  rw [sweep, OrderedMap.get?_mapValues]

/-- The rows of a sweep that bear a hash are those of its record, if that is due. -/
theorem sweepRows_filter (hash : Text) :
    (l.sweepRows policy now).filter (fun row => row.hash = hash)
      = (l.get? hash).elim [] fun r => if policy.due now l.tallest r then r.rows hash else [] := by
  have hflat : l.sweepRows policy now
      = l.entries.flatMap fun entry =>
          if policy.due now l.tallest entry.2 then entry.2.rows entry.1 else [] := by
    simp only [sweepRows, due]
    induction l.entries with
    | nil => rfl
    | cons entry rest ih =>
      by_cases hd : policy.due now l.tallest entry.2 <;> simp [hd, ih]
  rw [hflat]
  refine Assoc.filter_flatMap Row.hash
    (fun key r => if policy.due now l.tallest r then r.rows key else []) hash l.entries
    l.distinct ?_
  intro key r row hrow
  split at hrow
  · exact Record.hash_of_mem_rows hrow
  · simp at hrow

/-- A window changes no record that it keeps. -/
theorem get?_of_get?_enforce {l : Ledger} {window : Window} {hash : Text} {r : Record}
    (h : (l.enforce window).get? hash = some r) : l.get? hash = some r := by
  rw [enforce, OrderedMap.get?_filterKeys] at h
  split at h
  · exact h
  · simp at h

end Ledger

namespace Tracker

/-- The ledger that the sweep after an item goes over, if the item is an accepted import. -/
def counted? (t : Tracker) (now : Int) : Item → Option Ledger
  | .event (.blockImport b) =>
    if Ledger.accepts b then some (t.ledger.count t.registry b now) else none
  | _ => none

variable {t : Tracker} {now : Int} {item : Item} {l : Ledger} {hash : Text} {r : Record}

theorem counted?_eq_some_iff :
    t.counted? now item = some l
      ↔ ∃ b, item = .event (.blockImport b) ∧ Ledger.accepts b
          ∧ l = t.ledger.count t.registry b now := by
  cases item with
  | foreign => simp [counted?]
  | event e =>
    cases e with
    | announce a => simp [counted?]
    | blockImport b =>
      simp only [counted?, Option.ite_none_right_eq_some, Option.some.injEq, Item.event.injEq,
        Event.blockImport.injEq]
      constructor
      · rintro ⟨hb, rfl⟩
        exact ⟨b, rfl, hb, rfl⟩
      · rintro ⟨b, rfl, hb, rfl⟩
        exact ⟨hb, rfl⟩

@[simp] theorem policy_step : (t.step now item).1.policy = t.policy := by
  cases item with
  | foreign => rfl
  | event e => cases e <;> rfl

@[simp] theorem window_step : (t.step now item).1.window = t.window := by
  cases item with
  | foreign => rfl
  | event e => cases e <;> rfl

/-- An accepted import: count, sweep, evict. -/
theorem step_of_counted (h : t.counted? now item = some l) :
    (t.step now item).1.ledger = (l.sweep t.policy now).enforce t.window
      ∧ (t.step now item).2 = l.sweepRows t.policy now := by
  obtain ⟨b, rfl, hb, rfl⟩ := counted?_eq_some_iff.mp h
  simp [step, importBlock, Ledger.handle, hb]

/-- Anything else brings no rows, and at most applies the window. -/
theorem step_of_not_counted (h : t.counted? now item = none) :
    ((t.step now item).1.ledger = t.ledger
        ∨ (t.step now item).1.ledger = t.ledger.enforce t.window)
      ∧ (t.step now item).2 = [] := by
  cases item with
  | foreign => simp [step]
  | event e =>
    cases e with
    | announce a => simp [step]
    | blockImport b =>
      have hb : Ledger.accepts b = false := by simpa [counted?] using h
      simp [step, importBlock, Ledger.handle, hb]

/-- A record that is there after an item was there before it, unless an import counted it. -/
theorem get?_of_not_counted (h : t.counted? now item = none)
    (hr : (t.step now item).1.ledger.get? hash = some r) : t.ledger.get? hash = some r := by
  rcases (step_of_not_counted h).1 with hl | hl <;> rw [hl] at hr
  · exact hr
  · exact Ledger.get?_of_get?_enforce hr

/-- A record that is there after an accepted import is the counted one, closed if it was due. -/
theorem get?_of_counted (h : t.counted? now item = some l)
    (hr : (t.step now item).1.ledger.get? hash = some r) :
    ∃ c, l.get? hash = some c ∧ r = if t.policy.due now l.tallest c then c.close else c := by
  rw [(step_of_counted h).1] at hr
  have hs := Ledger.get?_of_get?_enforce hr
  rw [Ledger.get?_sweep, Option.map_eq_some_iff] at hs
  obtain ⟨c, hc, rfl⟩ := hs
  exact ⟨c, hc, rfl⟩

/-- After an accepted import, a record is finalized if it was before or the policy is met. -/
theorem finalized_iff_of_counted (h : t.counted? now item = some l)
    (hr : (t.step now item).1.ledger.get? hash = some r) :
    ∃ c, l.get? hash = some c
      ∧ (r.finalized = true ↔ c.finalized = true ∨ t.policy.Met c now l.tallest) := by
  obtain ⟨c, hc, rfl⟩ := get?_of_counted h hr
  refine ⟨c, hc, ?_⟩
  by_cases hdue : t.policy.due now l.tallest c = true
  · rw [if_pos hdue]
    exact iff_of_true rfl (.inr ((Policy.due_iff ..).mp hdue).2)
  · rw [if_neg hdue]
    rw [Policy.due_iff, not_and] at hdue
    cases hfin : c.finalized with
    | true => simp
    | false => simpa using hdue hfin

/-- What every report brings about and other records keep holds of all records once an import
was counted. -/
theorem forall_counted {P Q : Record → Prop} (hold : ∀ hash c, t.ledger.get? hash = some c → P c)
    (hkeep : ∀ c, P c → Q c)
    (hobserve : ∀ b c, item = .event (.blockImport b) → c = .fresh b.height now ∨ P c →
      Q (c.observe (Ledger.reporterFor t.registry b now) b.propagation))
    (h : t.counted? now item = some l) (hr : l.get? hash = some r) : Q r := by
  obtain ⟨b, rfl, -, rfl⟩ := counted?_eq_some_iff.mp h
  exact Ledger.forall_count hold hkeep (fun c => hobserve b c rfl) hr

/-- Closing keeps it too, so it holds of all records after an item. -/
theorem forall_step {P Q : Record → Prop} (hold : ∀ hash c, t.ledger.get? hash = some c → P c)
    (hkeep : ∀ c, P c → Q c)
    (hobserve : ∀ b c, item = .event (.blockImport b) → c = .fresh b.height now ∨ P c →
      Q (c.observe (Ledger.reporterFor t.registry b now) b.propagation))
    (hclose : ∀ c, Q c → Q c.close) (hr : (t.step now item).1.ledger.get? hash = some r) : Q r := by
  cases hl : t.counted? now item with
  | none => exact hkeep r (hold hash r (get?_of_not_counted hl hr))
  | some l =>
    obtain ⟨c, hc, rfl⟩ := get?_of_counted hl hr
    have hcounted : Q c := forall_counted hold hkeep hobserve hl hc
    split
    · exact hclose c hcounted
    · exact hcounted

/-- A hash that is there after an item was there before, or the item imports it. -/
theorem known_of_step (hr : (t.step now item).1.ledger.get? hash = some r) :
    (∃ c, t.ledger.get? hash = some c)
      ∨ ∃ b, item = .event (.blockImport b) ∧ b.hash = hash := by
  cases hl : t.counted? now item with
  | none => exact .inl ⟨r, get?_of_not_counted hl hr⟩
  | some l =>
    obtain ⟨c, hc, -⟩ := get?_of_counted hl hr
    obtain ⟨b, rfl, -, rfl⟩ := counted?_eq_some_iff.mp hl
    rw [Ledger.get?_count] at hc
    split at hc
    next hhash => exact .inr ⟨b, rfl, hhash⟩
    next => exact .inl ⟨c, hc⟩

/-- Counting finalizes nothing, and a record that it makes is open. -/
theorem finalized_of_counted (h : t.counted? now item = some l) (hr : l.get? hash = some r) :
    r.finalized = (t.ledger.get? hash).elim false Record.finalized := by
  obtain ⟨b, rfl, hb, rfl⟩ := counted?_eq_some_iff.mp h
  rw [Ledger.get?_count] at hr
  split at hr
  next hh =>
    subst hh
    cases hr
    rw [Record.finalized_observe, Ledger.recordFor]
    cases t.ledger.get? b.hash <;> rfl
  next => simp [hr]

/-- A record that counting makes is of the hash that the item imports. -/
theorem imports_of_new (h : t.counted? now item = some l) (hold : t.ledger.get? hash = none)
    (hr : l.get? hash = some r) :
    ∃ b, item = .event (.blockImport b) ∧ Ledger.accepts b = true ∧ b.hash = hash := by
  obtain ⟨b, rfl, hb, rfl⟩ := counted?_eq_some_iff.mp h
  rw [Ledger.get?_count] at hr
  split at hr
  next hh => exact ⟨b, rfl, hb, hh⟩
  next => exact absurd (hold.symm.trans hr) (by simp)

/-- The rows that an accepted import brings for a hash. -/
theorem rows_of_counted (h : t.counted? now item = some l) (hr : l.get? hash = some r) :
    (t.step now item).2.filter (fun row => row.hash = hash)
      = if t.policy.due now l.tallest r then r.rows hash else [] := by
  rw [(step_of_counted h).2, Ledger.sweepRows_filter, hr]
  rfl

/-- An item brings rows for a hash only if its sweep finds the record open and due. -/
theorem exists_due_of_rows (h : (t.step now item).2.filter (fun row => row.hash = hash) ≠ []) :
    ∃ l r, t.counted? now item = some l ∧ l.get? hash = some r
      ∧ r.finalized = false ∧ t.policy.Met r now l.tallest := by
  cases hc : t.counted? now item with
  | none => simp [(step_of_not_counted hc).2] at h
  | some l =>
    rw [(step_of_counted hc).2, Ledger.sweepRows_filter] at h
    cases hr : l.get? hash with
    | none => simp [hr] at h
    | some r =>
      have hd : t.policy.due now l.tallest r = true := by
        by_contra hd
        simp [hr, hd] at h
      obtain ⟨hopen, hmet⟩ := (t.policy.due_iff r now l.tallest).mp hd
      exact ⟨l, r, rfl, hr, hopen, hmet⟩

/-- A finalized record brings no rows. -/
theorem rows_of_finalized (hr : t.ledger.get? hash = some r) (hf : r.finalized = true) :
    (t.step now item).2.filter (fun row => row.hash = hash) = [] := by
  by_contra hrows
  obtain ⟨l, c, hl, hc, hopen, -⟩ := exists_due_of_rows hrows
  have hfin := finalized_of_counted hl hc
  rw [hr, Option.elim_some, hf, hopen] at hfin
  cases hfin

/-- A finalized record stays finalized for as long as it is kept. -/
theorem finalized_of_finalized (hr : t.ledger.get? hash = some r) (hf : r.finalized = true)
    {c : Record} (hc : (t.step now item).1.ledger.get? hash = some c) : c.finalized = true := by
  cases hl : t.counted? now item with
  | none =>
    have hold := get?_of_not_counted hl hc
    rw [hr] at hold
    cases hold
    exact hf
  | some l =>
    obtain ⟨d, hd, rfl⟩ := get?_of_counted hl hc
    have hfin := finalized_of_counted hl hd
    rw [hr, Option.elim_some, hf] at hfin
    split
    · rfl
    · exact hfin

end Tracker

end AuthorWatch
