import AuthorWatch.Ledger.Retention
import Mathlib.Data.List.Nodup

/-! A window keeps the entries that lead the ranking. So it cuts a ledger to its size and
leaves a ledger of that size as it is, and cutting once more changes nothing. -/

namespace AuthorWatch.Ledger

theorem rankInto_perm (entry : Text × Record) (entries : List (Text × Record)) :
    (rankInto entry entries).Perm (entry :: entries) := by
  induction entries with
  | nil => exact .refl _
  | cons other rest ih =>
    rw [rankInto]
    split
    · exact .refl _
    · exact (ih.cons other).trans (.swap ..)

theorem foldr_rankInto_perm (entries : List (Text × Record)) :
    (entries.foldr rankInto []).Perm entries := by
  induction entries with
  | nil => exact .refl _
  | cons entry rest ih => exact (rankInto_perm entry _).trans (ih.cons entry)

theorem ranked_perm (l : Ledger) : l.ranked.Perm l.entries := foldr_rankInto_perm l.entries

theorem nodup_keys_ranked (l : Ledger) : (Assoc.keys l.ranked).Nodup :=
  (l.ranked_perm.map Prod.fst).nodup_iff.mpr l.distinct

theorem mem_enforce_iff {l : Ledger} {window : Window} {entry : Text × Record} :
    entry ∈ (l.enforce window).entries ↔ entry ∈ l.ranked.take window.size := by
  have hsplit : l.ranked.take window.size ++ l.beyond window = l.ranked :=
    List.take_append_drop ..
  have hkeys := l.nodup_keys_ranked
  rw [← hsplit, Assoc.keys, List.map_append, List.nodup_append] at hkeys
  have hmem : entry ∈ l.entries
      ↔ entry ∈ l.ranked.take window.size ∨ entry ∈ l.beyond window := by
    rw [← l.ranked_perm.mem_iff, ← List.mem_append, hsplit]
  simp only [enforce, OrderedMap.filterKeys, List.mem_filter, decide_eq_true_eq, hmem]
  constructor
  · rintro ⟨h | h, hkept⟩
    · exact h
    · exact absurd (List.mem_map_of_mem h) hkept
  · intro h
    exact ⟨.inl h, fun hout => hkeys.2.2 _ (List.mem_map_of_mem h) _ hout rfl⟩

theorem enforce_perm (l : Ledger) (window : Window) :
    (l.enforce window).entries.Perm (l.ranked.take window.size) := by
  refine (List.perm_ext_iff_of_nodup ?_ ?_).mpr fun _ => mem_enforce_iff
  · exact List.Nodup.of_map Prod.fst (l.enforce window).distinct
  · exact (List.Nodup.of_map Prod.fst l.nodup_keys_ranked).sublist (List.take_sublist ..)

theorem size_enforce (l : Ledger) (window : Window) :
    (l.enforce window).size = min window.size l.size := by
  rw [OrderedMap.size, (l.enforce_perm window).length_eq, List.length_take,
    l.ranked_perm.length_eq]
  rfl

theorem size_enforce_le (l : Ledger) (window : Window) : (l.enforce window).size ≤ window.size :=
  l.size_enforce window ▸ Nat.min_le_left ..

theorem enforce_of_size_le {l : Ledger} {window : Window} (h : l.size ≤ window.size) :
    l.enforce window = l := by
  have hnone : l.beyond window = [] := by
    rw [beyond, List.drop_eq_nil_iff, l.ranked_perm.length_eq]
    exact h
  obtain ⟨entries, distinct⟩ := l
  simp [enforce, hnone, OrderedMap.filterKeys, Assoc.keys]

theorem enforce_enforce (l : Ledger) (window : Window) :
    (l.enforce window).enforce window = l.enforce window :=
  enforce_of_size_le (l.size_enforce_le window)

end AuthorWatch.Ledger
