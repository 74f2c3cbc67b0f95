import AuthorWatch.Proofs.Ledger.Retention

/-! What a window evicts stands behind all that it keeps: it is lower, or it is as high and
came later. And a window evicts only what does not fit, so then it is full. -/

namespace AuthorWatch.Ledger

variable {l : Ledger} {window : Window} {before : Text → Text → Prop} {x y : Text × Record}

/-- The first entry is higher, or as high and before the second. -/
def Outranks (before : Text → Text → Prop) (x y : Text × Record) : Prop :=
  y.2.height < x.2.height ∨ x.2.height = y.2.height ∧ before x.1 y.1

theorem height_le_of_outranks (h : Outranks before x y) : y.2.height ≤ x.2.height := by
  rcases h with h | h
  · exact Int.le_of_lt h
  · exact Int.le_of_eq h.1.symm

theorem outranks_of_le (hle : y.2.height ≤ x.2.height) (h : before x.1 y.1) :
    Outranks before x y := by
  rcases Int.lt_or_eq_of_le hle with hlt | heq
  · exact .inl hlt
  · exact .inr ⟨heq.symm, h⟩

/-! ### The ranking -/

theorem pairwise_rankInto {entries : List (Text × Record)}
    (h : entries.Pairwise (Outranks before)) (hx : ∀ y ∈ entries, before x.1 y.1) :
    (rankInto x entries).Pairwise (Outranks before) := by
  induction entries with
  | nil => simp [rankInto]
  | cons other rest ih =>
    obtain ⟨hother, hrest⟩ := List.pairwise_cons.mp h
    rw [rankInto]
    split
    next hle =>
      refine List.pairwise_cons.mpr ⟨fun y hy => outranks_of_le ?_ (hx y hy), h⟩
      rcases List.mem_cons.mp hy with rfl | hy
      · exact hle
      · exact Int.le_trans (height_le_of_outranks (hother y hy)) hle
    next hgt =>
      refine List.pairwise_cons.mpr
        ⟨fun y hy => ?_, ih hrest fun y hy => hx y (List.mem_cons_of_mem _ hy)⟩
      rcases List.mem_cons.mp ((rankInto_perm x rest).mem_iff.mp hy) with rfl | hy
      · exact .inl (Int.not_le.mp hgt)
      · exact hother y hy

theorem pairwise_foldr_rankInto {entries : List (Text × Record)}
    (h : entries.Pairwise fun x y => before x.1 y.1) :
    (entries.foldr rankInto []).Pairwise (Outranks before) := by
  induction entries with
  | nil => exact .nil
  | cons entry rest ih =>
    obtain ⟨hentry, hrest⟩ := List.pairwise_cons.mp h
    exact pairwise_rankInto (ih hrest) fun y hy =>
      hentry y ((foldr_rankInto_perm rest).mem_iff.mp hy)

/-- Entries that come one before the other are ranked by height, and then as they come. -/
theorem pairwise_ranked (h : l.entries.Pairwise fun x y => before x.1 y.1) :
    l.ranked.Pairwise (Outranks before) := pairwise_foldr_rankInto h

/-! ### What is evicted -/

/-- A window that evicts an entry is full, and all that it keeps outranks the entry. -/
theorem outranks_of_evicted (h : l.entries.Pairwise fun x y => before x.1 y.1)
    (hy : y ∈ l.entries) (hout : y ∉ (l.enforce window).entries) :
    (l.enforce window).size = window.size
      ∧ ∀ x ∈ (l.enforce window).entries, Outranks before x y := by
  have hbeyond : y ∈ l.ranked.drop window.size := by
    rw [mem_enforce_iff] at hout
    have hsplit := (List.mem_append (s := l.ranked.take window.size)
      (t := l.ranked.drop window.size)).mp (by rwa [List.take_append_drop, l.ranked_perm.mem_iff])
    exact hsplit.resolve_left hout
  constructor
  · have hlen := List.length_pos_of_mem hbeyond
    rw [List.length_drop, l.ranked_perm.length_eq] at hlen
    have hsize : l.size = l.entries.length := rfl
    rw [size_enforce]
    omega
  · intro x hx
    have hranked := pairwise_ranked h
    rw [← List.take_append_drop window.size l.ranked, List.pairwise_append] at hranked
    exact hranked.2.2 x (mem_enforce_iff.mp hx) y hbeyond

end AuthorWatch.Ledger
