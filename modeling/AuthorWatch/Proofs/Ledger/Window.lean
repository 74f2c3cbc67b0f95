import AuthorWatch.Proofs.Ledger.Heights

/-! Cutting a ledger to a window. The window keeps the first entries of the ranking and gives
back the rest as the ranking lists them. What it keeps is ranked as before, so a smaller window
afterwards takes out what it would have taken out at once. -/

namespace AuthorWatch.Ledger

variable {l m : Ledger} {window large small : Window} {x y : Text × Record}

/-! ### The ranking, and what a window leaves of it -/

/-- The first hash came to the ledger before the second. -/
def Before (l : Ledger) (key key' : Text) : Prop := l.keys.idxOf key < l.keys.idxOf key'

theorem pairwise_before (l : Ledger) : l.entries.Pairwise fun x y => l.Before x.1 y.1 := by
  have hdistinct : l.keys.Nodup := l.distinct
  have hkeys : l.keys.Pairwise l.Before := by
    rw [List.pairwise_iff_getElem]
    intro i j hi hj hij
    rw [Before, hdistinct.idxOf_getElem, hdistinct.idxOf_getElem]
    exact hij
  exact List.pairwise_map.mp hkeys

theorem not_outranks_of_outranks (h : Outranks l.Before x y) : ¬ Outranks l.Before y x := by
  simp only [Outranks, Before] at h ⊢
  omega

/-- What a window keeps stays in its order. -/
theorem sublist_enforce (l : Ledger) (window : Window) :
    (l.enforce window).entries.Sublist l.entries := List.filter_sublist

/-- What a window keeps is ranked as before. -/
theorem ranked_enforce (l : Ledger) (window : Window) :
    (l.enforce window).ranked = l.ranked.take window.size := by
  have hperm : (l.enforce window).ranked.Perm (l.ranked.take window.size) :=
    (ranked_perm _).trans (l.enforce_perm window)
  have hkept : (l.enforce window).ranked.Pairwise (Outranks l.Before) :=
    pairwise_ranked (l.pairwise_before.sublist (l.sublist_enforce window))
  have hlead : (l.ranked.take window.size).Pairwise (Outranks l.Before) :=
    (pairwise_ranked l.pairwise_before).sublist (List.take_sublist ..)
  refine List.Perm.eq_of_pairwise ?_ hkept hlead hperm
  intro x y _ _ hxy hyx
  exact absurd hyx (not_outranks_of_outranks hxy)

/-! ### What a window evicts -/

theorem perm_beyond (l : Ledger) (window : Window) :
    ((l.enforce window).entries ++ l.beyond window).Perm l.entries := by
  refine ((l.enforce_perm window).append_right _).trans ?_
  rw [beyond, List.take_append_drop]
  exact l.ranked_perm

theorem mem_keys_beyond_iff {hash : Text} :
    hash ∈ Assoc.keys (l.beyond window)
      ↔ l.contains hash = true ∧ (l.enforce window).contains hash = false := by
  have hkept : (l.enforce window).contains hash = true
      ↔ hash ∈ l.keys ∧ hash ∉ Assoc.keys (l.beyond window) := by
    rw [contains_iff_mem_keys, enforce, OrderedMap.keys_filterKeys, List.mem_filter,
      decide_eq_true_iff]
  have hout : hash ∈ Assoc.keys (l.beyond window) → hash ∈ l.keys := by
    intro hmem
    have hkeys := ((l.perm_beyond window).map Prod.fst).mem_iff (a := hash)
    rw [List.map_append, List.mem_append] at hkeys
    exact hkeys.mp (.inr hmem)
  rw [← Bool.not_eq_true, hkept, contains_iff_mem_keys]
  constructor
  · exact fun hmem => ⟨hout hmem, fun h => h.2 hmem⟩
  · rintro ⟨hheld, hnot⟩
    by_contra hmem
    exact hnot ⟨hheld, hmem⟩

/-- A window and then a smaller one evict in two parts what the smaller one evicts at once. -/
theorem beyond_enforce_append (h : small.size ≤ large.size) :
    (l.enforce large).beyond small ++ l.beyond large = l.beyond small := by
  have hrest : l.ranked.drop large.size
      = (l.ranked.drop small.size).drop (large.size - small.size) := by
    rw [List.drop_drop, Nat.add_sub_cancel' h]
  rw [beyond, beyond, beyond, ranked_enforce, List.drop_take, hrest, List.take_append_drop]

theorem enforce_enforce_of_le (h : small.size ≤ large.size) :
    (l.enforce large).enforce small = l.enforce small := by
  refine OrderedMap.eq_of_entries ?_
  show (l.entries.filter fun entry => entry.1 ∉ Assoc.keys (l.beyond large)).filter
      (fun entry => entry.1 ∉ Assoc.keys ((l.enforce large).beyond small))
    = l.entries.filter fun entry => entry.1 ∉ Assoc.keys (l.beyond small)
  have hparts : Assoc.keys (l.beyond small)
      = Assoc.keys ((l.enforce large).beyond small) ++ Assoc.keys (l.beyond large) := by
    rw [← beyond_enforce_append h, Assoc.keys, List.map_append]
    rfl
  rw [List.filter_filter, hparts]
  refine List.filter_congr fun entry _ => ?_
  rw [Bool.eq_iff_iff]
  simp only [Bool.and_eq_true, decide_eq_true_iff, List.mem_append, not_or]

/-! ### The cut -/

/-- The ledger is cut to a size: some entries are kept, and the others are evicted. -/
structure Cut (l : Ledger) (size : ℕ) (kept : Ledger) (evicted : List (Text × Record)) : Prop where
  size_kept : kept.size = min l.size size
  /-- What is kept stays in its order, with all its fields. -/
  sublist : kept.entries.Sublist l.entries
  perm : (kept.entries ++ evicted).Perm l.entries
  nodup : (Assoc.keys evicted).Nodup
  removed : ∀ hash, hash ∈ Assoc.keys evicted
    ↔ l.contains hash = true ∧ kept.contains hash = false
  /-- The higher before the lower, and at equal heights the earlier before the later. -/
  ranked : evicted.Pairwise (Outranks l.Before)
  outranked : ∀ x ∈ kept.entries, ∀ y ∈ evicted, Outranks l.Before x y

theorem cut_enforce (l : Ledger) (window : Window) :
    l.Cut window.size (l.enforce window) (l.beyond window) := by
  have hranked : (l.ranked.take window.size ++ l.beyond window).Pairwise (Outranks l.Before) := by
    rw [beyond, List.take_append_drop]
    exact pairwise_ranked l.pairwise_before
  obtain ⟨-, hbeyond, houtranked⟩ := List.pairwise_append.mp hranked
  refine ⟨?_, l.sublist_enforce window, l.perm_beyond window, ?_, fun _ => mem_keys_beyond_iff,
    hbeyond, fun x hx y hy => houtranked x (mem_enforce_iff.mp hx) y hy⟩
  · rw [size_enforce, Nat.min_comm]
  · exact l.nodup_keys_ranked.sublist ((List.drop_sublist ..).map Prod.fst)

/-- A window leaves as many records as it has places, or all if there are fewer, and gives the
evicted hashes back in the order of the ranking. Whatever it keeps is higher than what it evicts,
or as high and came earlier. There is nothing for it to evict once more, and a smaller window
after it leaves what it would have left at once. Hashes, heights and their order alone decide what
is evicted, so it plays no part what is finalized. -/
theorem window_keeps_highest (l : Ledger) (window : Window) :
    l.Cut window.size (l.enforce window) (l.beyond window)
    ∧ (l.enforce window).beyond window = []
    ∧ (∀ small : Window, small.size ≤ window.size →
      (l.enforce window).enforce small = l.enforce small)
    ∧ ∀ m : Ledger, m.heights = l.heights →
      Assoc.keys (m.beyond window) = Assoc.keys (l.beyond window)
        ∧ (m.enforce window).keys = (l.enforce window).keys := by
  refine ⟨l.cut_enforce window, ?_, fun small h => enforce_enforce_of_le h, fun m h => ?_⟩
  · rw [beyond, ranked_enforce, List.drop_take, Nat.sub_self, List.take_zero]
  · have hevicted : Assoc.keys (m.beyond window) = Assoc.keys (l.beyond window) :=
      keys_beyond_congr h
    refine ⟨hevicted, ?_⟩
    rw [enforce, enforce, OrderedMap.keys_filterKeys, OrderedMap.keys_filterKeys, hevicted,
      keys_eq_map_heights, h, keys_eq_map_heights]

/-- Two blocks of one height around a higher one, and a lower block that is finalized. -/
def fourBlocks : Ledger := .ofPairs [("a", ⟨5, 0, some 4, [], 1, false⟩),
  ("b", ⟨7, 0, some 4, [], 1, false⟩), ("c", ⟨5, 0, none, [], 1, true⟩),
  ("d", ⟨3, 0, some 4, [], 1, true⟩)]

/-- A window for two keeps `a` although it is open and `c` is as high; a window for one then
leaves `b`. With all flags turned round the same hashes are evicted. -/
theorem window_keeps_of_fourBlocks :
    let two : Window := ⟨2, Nat.two_pos⟩
    let one : Window := ⟨1, Nat.one_pos⟩
    (fourBlocks.enforce two).size = 2
    ∧ Assoc.keys (fourBlocks.beyond two) = ["c", "d"]
    ∧ (fourBlocks.enforce two).keys = ["a", "b"]
    ∧ (∀ y ∈ fourBlocks.beyond two, Outranks fourBlocks.Before ("a", ⟨5, 0, some 4, [], 1, false⟩) y)
    ∧ (fourBlocks.enforce two).beyond two = []
    ∧ ((fourBlocks.enforce two).enforce one).keys = ["b"]
    ∧ Assoc.keys (beyond (fourBlocks.mapValues fun _ c => { c with finalized := !c.finalized }) two)
      = ["c", "d"] := by
  intro two one
  obtain ⟨hcut, hnone, hsmall, hsame⟩ := window_keeps_highest fourBlocks two
  have hevicted : Assoc.keys (fourBlocks.beyond two) = ["c", "d"] := by decide +kernel
  refine ⟨hcut.size_kept.trans (by decide +kernel), hevicted, by decide +kernel,
    hcut.outranked _ (by decide +kernel), hnone, ?_, ?_⟩
  · rw [hsmall one (by decide)]
    decide +kernel
  · exact (hsame _ (by decide +kernel)).1.trans hevicted

end AuthorWatch.Ledger
