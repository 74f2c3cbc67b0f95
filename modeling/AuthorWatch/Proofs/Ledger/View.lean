import AuthorWatch.Proofs.Ledger.Eviction

/-! Ledgers seen through a view that leaves out a part of every record. If heights are seen and
the part plays no role in counting a report, then it plays none in what a window evicts, and what
is seen of the ledger goes its way by itself. -/

namespace AuthorWatch

/-- What is seen of records and of their reporters. A report does to what is seen of a record what
it does to the record. -/
structure Record.View where
  record : Record → Record
  reporter : Reporter → Reporter
  height_record : ∀ c, (record c).height = c.height
  record_fresh : ∀ height firstSeen, record (.fresh height firstSeen) = .fresh height firstSeen
  record_observe : ∀ c x time, record (c.observe x time) = (record c).observe (reporter x) time

namespace Ledger

variable (v : Record.View) (l : Ledger) (window : Window)

/-- What is seen of a ledger: all hashes in their order, and of each record what the view shows. -/
def seen : Ledger := l.mapValues fun _ c => v.record c

theorem entries_seen :
    (l.seen v).entries = l.entries.map fun entry => (entry.1, v.record entry.2) := rfl

@[simp] theorem get?_seen (hash : Text) : (l.seen v).get? hash = (l.get? hash).map v.record :=
  OrderedMap.get?_mapValues ..

theorem heights_seen : (l.seen v).heights = l.heights := by
  rw [heights, entries_seen, List.map_map]
  exact List.map_congr_left fun entry _ => by simp [v.height_record]

theorem tallest_seen : (l.seen v).tallest = l.tallest := by
  rw [tallest_eq, tallest_eq, heights_seen]

/-! ### The window -/

/-- A window evicts the same hashes, in the same order. -/
theorem keys_beyond_seen : Assoc.keys ((l.seen v).beyond window) = Assoc.keys (l.beyond window) :=
  keys_beyond_congr (l.heights_seen v)

theorem seen_enforce : (l.enforce window).seen v = (l.seen v).enforce window := by
  refine OrderedMap.eq_of_entries ?_
  simp only [enforce, keys_beyond_seen, OrderedMap.filterKeys, entries_seen, List.filter_map]
  rfl

/-! ### Counting -/

theorem recordFor_seen (b : BlockImport) (now : Int) :
    (l.seen v).recordFor b now = v.record (l.recordFor b now) := by
  rw [recordFor, recordFor, get?_seen]
  cases l.get? b.hash with
  | none => exact (v.record_fresh b.height now).symm
  | some c => rfl

theorem seen_count (registry : Registry) (b : BlockImport) (now : Int) :
    (l.count registry b now).seen v = (l.seen v).insert b.hash
      (((l.seen v).recordFor b now).observe (v.reporter (reporterFor registry b now))
        b.propagation) := by
  refine OrderedMap.eq_of_entries ?_
  rw [recordFor_seen, ← v.record_observe]
  exact (Assoc.insert_map v.record b.hash _ l.entries).symm

/-! ### Ledgers that look the same -/

variable {v l} {m : Ledger}

theorem tallest_congr (h : l.seen v = m.seen v) : l.tallest = m.tallest := by
  rw [← tallest_seen v l, h, tallest_seen]

theorem get?_congr (h : l.seen v = m.seen v) (hash : Text) :
    (l.get? hash).map v.record = (m.get? hash).map v.record := by
  rw [← get?_seen, h, get?_seen]

theorem heights_congr (h : l.seen v = m.seen v) : l.heights = m.heights := by
  rw [← heights_seen v l, h, heights_seen]

theorem seen_enforce_congr (h : l.seen v = m.seen v) :
    (l.enforce window).seen v = (m.enforce window).seen v := by
  rw [seen_enforce, h, seen_enforce]

end Ledger

namespace Tracker

/-- The hashes that an item takes out of the ledger, the highest first. -/
def evicted (t : Tracker) (now : Int) (item : Item) : List Text :=
  match item with
  | .event (.blockImport _) => Assoc.keys ((t.swept now item).beyond t.window)
  | _ => []

/-- The ledger after an import is what was swept, without the evicted hashes. -/
theorem ledger_step_import (t : Tracker) (now : Int) (b : BlockImport) :
    (t.step now (.event (.blockImport b))).1.ledger
      = (t.swept now (.event (.blockImport b))).enforce t.window := rfl

end Tracker

end AuthorWatch
