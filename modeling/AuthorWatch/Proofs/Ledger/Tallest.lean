import AuthorWatch.Proofs.Ledger.Window

/-! The tallest height of a ledger. The first record that is as high leads the ranking, so every
window keeps it, and with it the tallest height. -/

namespace AuthorWatch.Ledger

variable {l : Ledger} {window : Window} {x y : Text × Record}

/-! ### Heights and the tallest of them -/

theorem max?_heights (h : l.heights ≠ []) : (l.heights.map Prod.snd).max? = some l.tallest := by
  obtain ⟨place, hplace⟩ := List.exists_mem_of_ne_nil _ h
  have hmem : place.2 ∈ l.heights.map Prod.snd := List.mem_map_of_mem hplace
  obtain ⟨top, htop⟩ := Option.isSome_iff_exists.mp (List.isSome_max?_of_mem hmem)
  rw [tallest_eq, htop, Option.getD_some]

theorem le_tallest {place : Text × Int} (h : place ∈ l.heights) : place.2 ≤ l.tallest := by
  have hmax := max?_heights (List.ne_nil_of_mem h)
  exact (List.max?_eq_some_iff.mp hmax).2 _ (List.mem_map_of_mem h)

theorem exists_tallest (h : l.heights ≠ []) : ∃ place ∈ l.heights, place.2 = l.tallest :=
  List.mem_map.mp (List.max?_eq_some_iff.mp (max?_heights h)).1

theorem height_le_tallest (h : x ∈ l.entries) : x.2.height ≤ l.tallest :=
  le_tallest (List.mem_map_of_mem h)

/-! ### The crest -/

/-- The first of the highest entries. -/
def crest (l : Ledger) : Option (Text × Record) :=
  l.entries.find? fun entry => entry.2.height = l.tallest

theorem exists_crest (h : x ∈ l.entries) : ∃ y, l.crest = some y := by
  have hplaces : l.heights ≠ [] := List.ne_nil_of_mem (List.mem_map_of_mem h)
  obtain ⟨place, hplace, htall⟩ := exists_tallest hplaces
  obtain ⟨y, hy, rfl⟩ := List.mem_map.mp hplace
  exact Option.isSome_iff_exists.mp (List.find?_isSome.mpr ⟨y, hy, decide_eq_true htall⟩)

theorem height_crest (h : l.crest = some x) : x.2.height = l.tallest := by
  simpa using List.find?_some h

theorem tallest_eq_crest (l : Ledger) : l.tallest = l.crest.elim 0 fun entry => entry.2.height := by
  cases hcrest : l.crest with
  | some x => exact (height_crest hcrest).symm
  | none =>
    have hentries : l.entries = [] := by
      refine List.eq_nil_iff_forall_not_mem.mpr fun x hx => ?_
      obtain ⟨y, hy⟩ := exists_crest hx
      cases hcrest.symm.trans hy
    rw [tallest, hentries]
    rfl

/-- The crest is higher than every other entry, or as high and came earlier. -/
theorem outranks_of_crest (h : l.crest = some x) (hy : y ∈ l.entries) :
    y = x ∨ Outranks l.Before x y := by
  have hheight := height_crest h
  obtain ⟨-, lower, rest, hentries, hlower⟩ := List.find?_eq_some_iff_append.mp h
  have hordered := l.pairwise_before
  have hle := height_le_tallest hy
  rw [hentries] at hordered hy
  rcases List.mem_append.mp hy with hy | hy
  · have hne : ¬ y.2.height = l.tallest := by simpa using hlower y hy
    exact .inr (.inl (by omega))
  · rcases List.mem_cons.mp hy with rfl | hy
    · exact .inl rfl
    · have hafter := (List.pairwise_append.mp hordered).2.1
      exact .inr (outranks_of_le (by omega) ((List.pairwise_cons.mp hafter).1 y hy))

/-- The crest leads the ranking. -/
theorem head?_ranked (l : Ledger) : l.ranked.head? = l.crest := by
  cases hranked : l.ranked with
  | nil =>
    have hentries : l.entries = [] := List.nil_perm.mp (hranked ▸ l.ranked_perm)
    rw [crest, hentries]
    rfl
  | cons x rest =>
    have hx : x ∈ l.entries := l.ranked_perm.mem_iff.mp (hranked ▸ List.mem_cons_self)
    obtain ⟨y, hy⟩ := exists_crest hx
    have hmem : y ∈ x :: rest := hranked ▸ l.ranked_perm.mem_iff.mpr (List.mem_of_find?_eq_some hy)
    rw [List.head?_cons, hy]
    rcases List.mem_cons.mp hmem with rfl | hrest
    · rfl
    · have hlead := pairwise_ranked l.pairwise_before
      rw [hranked] at hlead
      have hxy := (List.pairwise_cons.mp hlead).1 y hrest
      rcases outranks_of_crest hy hx with rfl | hyx
      · rfl
      · exact absurd hyx (not_outranks_of_outranks hxy)

/-! ### The window -/

/-- No window evicts the crest. -/
theorem crest_enforce (l : Ledger) (window : Window) : (l.enforce window).crest = l.crest := by
  rw [← head?_ranked, ← head?_ranked, ranked_enforce, List.head?_take,
    if_neg (Nat.ne_of_gt window.pos)]

theorem tallest_enforce (l : Ledger) (window : Window) :
    (l.enforce window).tallest = l.tallest := by
  rw [tallest_eq_crest, crest_enforce, ← tallest_eq_crest]

/-! ### Counting -/

/-- An import makes the tallest height no lower. Without records that height is zero, and a block
is no lower than that. -/
theorem tallest_le_count {b : BlockImport} (hb : 0 ≤ b.height) (registry : Registry) (now : Int) :
    l.tallest ≤ (l.count registry b now).tallest := by
  cases hheights : l.heights with
  | nil =>
    have hnew : l.contains b.hash = false := by
      rw [← Bool.not_eq_true, contains_iff_mem_keys, keys_eq_map_heights, hheights]
      exact List.not_mem_nil
    have hplace : (b.hash, b.height) ∈ (l.count registry b now).heights := by
      rw [heights_count, hnew, hheights]
      exact List.mem_singleton_self _
    have hzero : l.tallest = 0 := by
      rw [tallest_eq, hheights]
      rfl
    have hle := le_tallest hplace
    omega
  | cons place rest =>
    obtain ⟨top, htop, htall⟩ := exists_tallest (hheights ▸ List.cons_ne_nil place rest)
    have hcounted : top ∈ (l.count registry b now).heights := by
      rw [heights_count]
      split
      · exact htop
      · exact List.mem_append_left _ htop
    rw [← htall]
    exact le_tallest hcounted

end AuthorWatch.Ledger
