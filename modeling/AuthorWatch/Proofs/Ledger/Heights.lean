import AuthorWatch.Proofs.Ledger.Ranking
import AuthorWatch.Proofs.Ledger.Step

/-! The heights of a ledger: its hashes in order, each with the height of its record. A sweep
leaves them, a count adds at most one of them, and a window takes some away. -/

namespace AuthorWatch

/-- Writing to a key that is there changes nothing that the old and the new value share. -/
theorem Assoc.map_insert_of_get? {κ α β : Type} [DecidableEq κ] {key : κ} {value old : α}
    {entries : List (κ × α)} (f : κ × α → β) (h : get? key entries = some old)
    (hf : f (key, value) = f (key, old)) : (insert key value entries).map f = entries.map f := by
  induction entries with
  | nil => cases h
  | cons entry rest ih =>
    obtain ⟨k, v⟩ := entry
    rw [get?] at h
    split at h
    next hk =>
      cases h
      subst hk
      rw [insert, if_pos rfl, List.map_cons, List.map_cons, hf]
    next hk => rw [insert, if_neg hk, List.map_cons, List.map_cons, ih h]

@[simp] theorem Record.height_observe (r : Record) (reporter : Reporter) (time : Int) :
    (r.observe reporter time).height = r.height := by
  rcases r.observe_cases reporter time with ⟨-, h⟩ | ⟨-, -, h⟩ | ⟨-, -, h⟩ <;> rw [h]

namespace Ledger

variable {l : Ledger} {window : Window} {hash : Text}

def heights (l : Ledger) : List (Text × Int) :=
  l.entries.map fun entry => (entry.1, entry.2.height)

theorem keys_eq_map_heights (l : Ledger) : l.keys = l.heights.map Prod.fst := by
  simp [OrderedMap.keys, Assoc.keys, heights]

theorem length_heights (l : Ledger) : l.heights.length = l.size := List.length_map ..

theorem tallest_eq (l : Ledger) : l.tallest = ((l.heights.map Prod.snd).max?).getD 0 := by
  simp only [tallest, heights, List.map_map]
  rfl

theorem contains_iff_mem_keys : l.contains hash = true ↔ hash ∈ l.keys := by
  rw [← Bool.not_eq_false, OrderedMap.not_contains_iff, OrderedMap.get?, Assoc.get?_eq_none_iff,
    not_not]
  rfl

theorem contains_congr {l' : Ledger} (h : l'.heights = l.heights) (hash : Text) :
    l'.contains hash = l.contains hash := by
  rw [Bool.eq_iff_iff, contains_iff_mem_keys, contains_iff_mem_keys, keys_eq_map_heights,
    keys_eq_map_heights, h]

/-! ### Counting and sweeping -/

theorem heights_sweep (l : Ledger) (policy : Policy) (now : Int) :
    (l.sweep policy now).heights = l.heights := by
  simp only [heights, sweep, OrderedMap.mapValues, List.map_map]
  refine List.map_congr_left fun entry _ => ?_
  simp only [Function.comp]
  split <;> rfl

theorem keys_sweep (l : Ledger) (policy : Policy) (now : Int) :
    (l.sweep policy now).keys = l.keys := by
  rw [keys_eq_map_heights, heights_sweep, keys_eq_map_heights]

theorem tallest_sweep (l : Ledger) (policy : Policy) (now : Int) :
    (l.sweep policy now).tallest = l.tallest := by
  rw [tallest_eq, tallest_eq, heights_sweep]

theorem heights_count (l : Ledger) (registry : Registry) (b : BlockImport) (now : Int) :
    (l.count registry b now).heights
      = if l.contains b.hash then l.heights else l.heights ++ [(b.hash, b.height)] := by
  split
  next hheld =>
    obtain ⟨c, hc⟩ := (OrderedMap.contains_iff _ _).mp hheld
    refine Assoc.map_insert_of_get? (fun entry => (entry.1, entry.2.height)) hc ?_
    simp only [Record.height_observe, recordFor, hc, Option.getD_some]
  next hnew =>
    rw [contains_iff_mem_keys] at hnew
    have hnone : l.get? b.hash = none := (Assoc.get?_eq_none_iff ..).mpr hnew
    simp only [heights, count, OrderedMap.insert]
    rw [Assoc.insert_of_not_mem _ hnew, List.map_append, List.map_singleton,
      Record.height_observe, recordFor, hnone]
    rfl

theorem keys_count (l : Ledger) (registry : Registry) (b : BlockImport) (now : Int) :
    (l.count registry b now).keys = if l.contains b.hash then l.keys else l.keys ++ [b.hash] := by
  rw [keys_eq_map_heights, heights_count, keys_eq_map_heights]
  split
  · rfl
  · rw [List.map_append, List.map_singleton]

/-! ### The ranking

It looks at heights, so whatever else is changed of the records changes no place in it. -/

section

variable {f : Record → Record} (hf : ∀ c, (f c).height = c.height)
include hf

theorem rankInto_map (entry : Text × Record) (entries : List (Text × Record)) :
    rankInto (entry.1, f entry.2) (entries.map fun entry => (entry.1, f entry.2))
      = (rankInto entry entries).map fun entry => (entry.1, f entry.2) := by
  induction entries with
  | nil => rfl
  | cons other rest ih =>
    by_cases hle : other.2.height ≤ entry.2.height
    · simp [rankInto, hf, hle]
    · simp [rankInto, hf, hle, ih]

theorem ranked_mapValues (l : Ledger) :
    ranked (l.mapValues fun _ => f) = l.ranked.map fun entry => (entry.1, f entry.2) := by
  show ((l.entries.map fun entry => (entry.1, f entry.2)).foldr rankInto []) = _
  rw [ranked]
  induction l.entries with
  | nil => rfl
  | cons entry rest ih => rw [List.map_cons, List.foldr_cons, ih, rankInto_map hf, List.foldr_cons]

theorem keys_beyond_mapValues (l : Ledger) (window : Window) :
    Assoc.keys (beyond (l.mapValues fun _ => f) window) = Assoc.keys (l.beyond window) := by
  rw [beyond, beyond, ranked_mapValues hf, ← List.map_drop, Assoc.keys, Assoc.keys, List.map_map]
  rfl

end

/-- A window evicts the same hashes, in the same order, from ledgers of the same heights. -/
theorem keys_beyond_congr {m : Ledger} (h : m.heights = l.heights) :
    Assoc.keys (m.beyond window) = Assoc.keys (l.beyond window) := by
  -- nothing but the height is left of a record
  have hf : ∀ c : Record, (Record.fresh c.height 0).height = c.height := fun _ => rfl
  have hbare : ∀ l : Ledger, (l.mapValues fun _ c => Record.fresh c.height 0).entries
      = l.heights.map fun x => (x.1, Record.fresh x.2 0) := fun l => by
    rw [heights, List.map_map]
    rfl
  have hsame : (m.mapValues fun _ c => Record.fresh c.height 0)
      = l.mapValues fun _ c => Record.fresh c.height 0 :=
    OrderedMap.eq_of_entries (by rw [hbare, hbare, h])
  rw [← keys_beyond_mapValues hf m, hsame, keys_beyond_mapValues hf]

/-! ### The window -/

theorem heights_enforce (l : Ledger) (window : Window) :
    (l.enforce window).heights = l.heights.filter fun x => (l.enforce window).contains x.1 := by
  simp only [heights, enforce, OrderedMap.filterKeys, List.filter_map]
  congr 1
  refine List.filter_congr fun entry hentry => ?_
  have hget := (l.mem_entries_iff entry.1 entry.2).mp hentry
  simp only [Function.comp, OrderedMap.contains]
  rw [OrderedMap.get?, Assoc.get?_filter (fun key => key ∉ Assoc.keys (l.beyond window))]
  rw [← OrderedMap.get?, hget]
  split <;> next h => simpa using h

/-- A window that evicts a hash is full, and all that it keeps is higher than that hash, or as
high and before it. -/
theorem standing_of_evicted {before : Text → Text → Prop} (h : l.keys.Pairwise before)
    {y : Text × Int} (hy : y ∈ l.heights) (hout : (l.enforce window).contains y.1 = false) :
    (l.enforce window).size = window.size
      ∧ ∀ x ∈ (l.enforce window).heights, y.2 < x.2 ∨ x.2 = y.2 ∧ before x.1 y.1 := by
  obtain ⟨entry, hentry, rfl⟩ := List.mem_map.mp hy
  have hevicted : entry ∉ (l.enforce window).entries := by
    intro hkept
    rw [← Bool.not_eq_true, contains_iff_mem_keys] at hout
    exact hout (List.mem_map_of_mem hkept)
  obtain ⟨hfull, hranked⟩ := outranks_of_evicted (List.pairwise_map.mp h) hentry hevicted
  refine ⟨hfull, fun x hx => ?_⟩
  obtain ⟨kept, hkept, rfl⟩ := List.mem_map.mp hx
  exact hranked kept hkept

end Ledger

end AuthorWatch
