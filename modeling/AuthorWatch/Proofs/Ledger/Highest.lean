import AuthorWatch.Proofs.Ledger.Eviction
import AuthorWatch.Proofs.Ledger.Sighting

/-! Evicting block by block is as good as choosing in the end. A ledger sees only what it
holds, but whatever it has lost stands behind all that it holds; so what it holds are the
first of all hashes ever sighted, and a hash that was lost is lost again whenever it is
reported anew. -/

namespace AuthorWatch

open Sighting (Chronological ranking)

namespace Ledger

variable {xs : List Sighting} {l c : Ledger} {window : Window} {x y : Sighting} {hash : Text}

/-- What a window keeps was there before. -/
theorem contains_of_contains_enforce (h : (l.enforce window).contains hash = true) :
    l.contains hash = true := by
  obtain ⟨c, hc⟩ := (OrderedMap.contains_iff _ _).mp h
  exact (OrderedMap.contains_iff _ _).mpr ⟨c, get?_of_get?_enforce hc⟩

/-- A window evicts something from a ledger that does not fit. -/
theorem exists_evicted (h : window.size < l.size) :
    ∃ entry ∈ l.heights, (l.enforce window).contains entry.1 = false := by
  by_contra hall
  simp only [not_exists, not_and, Bool.not_eq_false] at hall
  have hsame : (l.enforce window).heights = l.heights := by
    rw [heights_enforce, List.filter_eq_self]
    exact hall
  have hsize := (l.enforce window).length_heights
  rw [hsame, length_heights, size_enforce] at hsize
  omega

theorem contains_append {height : Int} (hc : c.heights = l.heights ++ [(hash, height)])
    (key : Text) : c.contains key = true ↔ l.contains key = true ∨ key = hash := by
  simp only [contains_iff_mem_keys, keys_eq_map_heights, hc, List.map_append, List.map_singleton,
    List.mem_append, List.mem_singleton]

/-! ### A ledger of sightings -/

/-- The ledger holds some of the sightings, at their heights and in the order of the list. -/
def Lists (xs : List Sighting) (l : Ledger) : Prop :=
  l.heights = (xs.filter fun x => l.contains x.hash).map fun x => (x.hash, x.height)

theorem Lists.mem_heights_iff (h : Lists xs l) {entry : Text × Int} :
    entry ∈ l.heights ↔ ∃ x ∈ xs, l.contains x.hash = true ∧ (x.hash, x.height) = entry := by
  rw [h, List.mem_map]
  simp only [List.mem_filter, and_assoc]

theorem Lists.exists_sighting (h : Lists xs l) (hheld : l.contains hash = true) :
    ∃ x ∈ xs, x.hash = hash := by
  rw [contains_iff_mem_keys, keys_eq_map_heights] at hheld
  obtain ⟨entry, hentry, rfl⟩ := List.mem_map.mp hheld
  obtain ⟨x, hx, -, rfl⟩ := h.mem_heights_iff.mp hentry
  exact ⟨x, hx, rfl⟩

theorem Lists.congr (h : Lists xs l) (hc : c.heights = l.heights) : Lists xs c := by
  simpa only [Lists, hc, contains_congr hc] using h

/-- A window leaves a ledger of the same sightings. -/
theorem Lists.enforce (h : Lists xs l) (window : Window) : Lists xs (l.enforce window) := by
  rw [Lists, heights_enforce, h, List.filter_map, List.filter_filter]
  congr 1
  refine List.filter_congr fun x _ => ?_
  rw [Bool.eq_iff_iff, Bool.and_eq_true]
  exact and_iff_left_of_imp contains_of_contains_enforce

/-- A hash that was not sighted before goes last. -/
theorem Lists.append (h : Lists xs l) (hnew : ∀ y ∈ xs, y.hash ≠ x.hash)
    (hc : c.heights = l.heights ++ [(x.hash, x.height)]) : Lists (xs ++ [x]) c := by
  have hold : xs.filter (fun y => c.contains y.hash) = xs.filter fun y => l.contains y.hash := by
    refine List.filter_congr fun y hy => ?_
    rw [Bool.eq_iff_iff, contains_append hc]
    exact or_iff_left (hnew y hy)
  have hlast : c.contains x.hash = true := (contains_append hc _).mpr (.inr rfl)
  rw [Lists, hc, h, List.filter_append, hold, List.filter_singleton, hlast, List.map_append]
  rfl

/-- What a window keeps precedes what it evicts, and then the window is full. -/
theorem Lists.precedes_of_evicted (h : Lists xs l) (hxs : Chronological xs) (hy : y ∈ xs)
    (hin : l.contains y.hash = true) (hout : (l.enforce window).contains y.hash = false) :
    (l.enforce window).size = window.size
      ∧ ∀ x ∈ xs, (l.enforce window).contains x.hash = true → x.Precedes y := by
  have hkeys : l.keys.Pairwise fun key key' =>
      ∃ x ∈ xs, ∃ y ∈ xs, x.hash = key ∧ y.hash = key' ∧ x.arrival < y.arrival := by
    rw [keys_eq_map_heights, h, List.map_map, List.pairwise_map]
    refine (hxs.sublist List.filter_sublist).imp_of_mem fun hx hy hxy => ?_
    exact ⟨_, List.mem_of_mem_filter hx, _, List.mem_of_mem_filter hy, rfl, rfl, hxy.1⟩
  obtain ⟨hfull, hranked⟩ := standing_of_evicted hkeys
    (h.mem_heights_iff.mpr ⟨y, hy, hin, rfl⟩) hout
  refine ⟨hfull, fun x hx hkept => ?_⟩
  rcases hranked _ ((h.enforce window).mem_heights_iff.mpr ⟨x, hx, hkept, rfl⟩) with
    hlt | ⟨heq, x', hx', y', hy', hhash, hhash', harrival⟩
  · exact .inl hlt
  · cases hxs.eq_of_hash hx' hx hhash
    cases hxs.eq_of_hash hy' hy hhash'
    exact .inr ⟨heq, Nat.le_of_lt harrival⟩

/-! ### A ledger of the first sightings -/

/-- The ledger holds those sightings that lead: all others stand behind them, and there are
others only if the window is full. -/
structure Leads (xs : List Sighting) (l : Ledger) (window : Window) : Prop where
  lists : Lists xs l
  fits : l.size ≤ window.size
  behind : ∀ x ∈ xs, l.contains x.hash = false →
    l.size = window.size ∧ ∀ y ∈ xs, l.contains y.hash = true → y.Precedes x

/-- What leads are the first sightings of the ranking, in the order in which they came. -/
theorem Leads.keys_eq (h : Leads xs l window) (hxs : Chronological xs) :
    l.keys = (xs.filter fun x => x ∈ (ranking xs).take window.size).map Sighting.hash := by
  have hkeys : l.keys = (xs.filter fun x => l.contains x.hash).map Sighting.hash := by
    rw [keys_eq_map_heights, h.lists, List.map_map]
    rfl
  have hsize : (xs.filter fun x => l.contains x.hash).length = l.size := by
    rw [← length_heights, h.lists, List.length_map]
  rw [hkeys]
  congr 1
  refine List.filter_congr fun x hx => ?_
  rw [Bool.eq_iff_iff, decide_eq_true_iff, iff_comm]
  refine Sighting.mem_take_ranking_iff hxs ?_ (hsize.trans_le h.fits) ?_ hx
  · intro x hx y hy hheld hout
    exact (h.behind y hy hout).2 x hx hheld
  · intro y hy hout
    exact hsize.trans (h.behind y hy hout).1

/-- Only hashes, heights and their order count. -/
theorem Leads.congr (h : Leads xs l window) (hc : c.heights = l.heights) : Leads xs c window := by
  have hsize : c.size = l.size := by rw [← length_heights, ← length_heights, hc]
  refine ⟨h.lists.congr hc, hsize.trans_le h.fits, ?_⟩
  simpa only [contains_congr hc, hsize] using h.behind

/-! ### A hash that the ledger does not hold

Once something was lost the window is full, so one hash more means that one is evicted. -/

section

variable {entry : Text × Int}

theorem Leads.size_append (h : Leads xs l window) (hy : y ∈ xs) (hout : l.contains y.hash = false)
    (hc : c.heights = l.heights ++ [entry]) : c.size = window.size + 1 := by
  rw [← length_heights, hc, List.length_append, length_heights, (h.behind y hy hout).1]
  rfl

theorem Leads.exists_evicted (h : Leads xs l window) (hy : y ∈ xs)
    (hout : l.contains y.hash = false) (hc : c.heights = l.heights ++ [entry]) :
    ∃ entry ∈ c.heights, (c.enforce window).contains entry.1 = false := by
  refine Ledger.exists_evicted ?_
  rw [h.size_append hy hout hc]
  exact Nat.lt_succ_self _

end

/-- A hash that was lost and is counted anew is lost again: it comes last among its equals, and
those that the ledger held are at least as high. -/
theorem Leads.lost_again (h : Leads xs l window) (hx : x ∈ xs) (hout : l.contains x.hash = false)
    (hc : c.heights = l.heights ++ [(x.hash, x.height)]) :
    (c.enforce window).contains x.hash = false := by
  -- any order will do that puts the hash behind all others
  have hlast : c.keys.Pairwise fun key _ => key ≠ x.hash := by
    have hne : ∀ entry ∈ l.heights, entry.1 ≠ x.hash := by
      intro entry hentry heq
      rw [← Bool.not_eq_true, contains_iff_mem_keys, keys_eq_map_heights] at hout
      exact hout (heq ▸ List.mem_map_of_mem hentry)
    rw [keys_eq_map_heights, hc, List.pairwise_map, List.pairwise_append]
    refine ⟨?_, List.pairwise_singleton .., fun entry hentry _ _ => hne entry hentry⟩
    exact (List.pairwise_of_forall fun _ _ => trivial).imp_of_mem fun hentry _ _ => hne _ hentry
  rw [← Bool.not_eq_true]
  intro hkept
  have hstays : (x.hash, x.height) ∈ (c.enforce window).heights := by
    rw [heights_enforce, hc, List.mem_filter]
    exact ⟨List.mem_append_right _ (List.mem_singleton_self _), hkept⟩
  obtain ⟨entry, hentry, hevicted⟩ := h.exists_evicted hx hout hc
  have hranked := (standing_of_evicted hlast hentry hevicted).2 _ hstays
  rw [hc, List.mem_append, List.mem_singleton] at hentry
  rcases hentry with hentry | rfl
  -- if another entry was evicted, the ledger held it, so it was as high
  · obtain ⟨y, hy, hheld, rfl⟩ := h.lists.mem_heights_iff.mp hentry
    have hprecedes := (h.behind x hx hout).2 y hy hheld
    rcases hranked with hlt | ⟨-, hne⟩
    · simp only [Sighting.Precedes] at hprecedes
      omega
    · exact hne rfl
  · rw [hkept] at hevicted
    cases hevicted

/-- Then it is the only one that is lost. -/
theorem Leads.again (h : Leads xs l window) (hx : x ∈ xs) (hout : l.contains x.hash = false)
    (hc : c.heights = l.heights ++ [(x.hash, x.height)]) :
    (c.enforce window).heights = l.heights := by
  have hold : (c.enforce window).heights
      = l.heights.filter fun entry => (c.enforce window).contains entry.1 := by
    rw [heights_enforce, hc, List.filter_append, List.filter_singleton, h.lost_again hx hout hc]
    exact List.append_nil _
  have hlength : (c.enforce window).heights.length = l.heights.length := by
    rw [length_heights, length_heights, size_enforce, h.size_append hx hout hc,
      (h.behind x hx hout).1]
    omega
  rw [hold] at hlength
  rw [hold, List.filter_eq_self]
  exact List.length_filter_eq_length_iff.mp hlength

/-- A new hash that finds a place takes it from one that preceded all that were lost before. -/
theorem Leads.precedes_of_lost (h : Leads xs l window) (hxs : Chronological (xs ++ [x]))
    (hc : c.heights = l.heights ++ [(x.hash, x.height)]) (hy : y ∈ xs)
    (hout : l.contains y.hash = false) {z : Sighting} (hz : z ∈ xs ++ [x])
    (hkept : (c.enforce window).contains z.hash = true) : z.Precedes y := by
  have hlists : Lists (xs ++ [x]) c := h.lists.append (hxs.hash_ne_last) hc
  have hbehind := (h.behind y hy hout).2
  rcases List.mem_append.mp hz with hz' | hzx
  · refine hbehind z hz' ?_
    exact ((contains_append hc z.hash).mp (contains_of_contains_enforce hkept)).resolve_right
      (hxs.hash_ne_last z hz')
  · cases List.mem_singleton.mp hzx
    -- some `w` that the ledger held made room for `x`, and `w` precedes `y`
    obtain ⟨entry, hentry, hevicted⟩ := h.exists_evicted hy hout hc
    obtain ⟨w, hw, hwin, rfl⟩ := hlists.mem_heights_iff.mp hentry
    have hne : w.hash ≠ x.hash := by
      intro heq
      rw [heq, hkept] at hevicted
      cases hevicted
    have hheld : l.contains w.hash = true :=
      ((contains_append hc w.hash).mp hwin).resolve_right hne
    have hold : w ∈ xs := by
      refine (List.mem_append.mp hw).resolve_right fun hwx => ?_
      exact hne (congrArg Sighting.hash (List.mem_singleton.mp hwx))
    have hxw : x.Precedes w := (hlists.precedes_of_evicted hxs hw hwin hevicted).2 x hz hkept
    exact Trans.trans hxw (hbehind w hold hheld)

/-- A hash that is sighted for the first time finds its place in the ranking. -/
theorem Leads.sighted (h : Leads xs l window) (hxs : Chronological (xs ++ [x]))
    (hc : c.heights = l.heights ++ [(x.hash, x.height)]) :
    Leads (xs ++ [x]) (c.enforce window) window := by
  have hlists : Lists (xs ++ [x]) c := h.lists.append hxs.hash_ne_last hc
  refine ⟨hlists.enforce window, c.size_enforce_le window, fun y hy hout => ?_⟩
  cases hin : c.contains y.hash with
  | true => exact hlists.precedes_of_evicted hxs hy hin hout
  | false =>
    rw [← Bool.not_eq_true, contains_append hc, not_or, Bool.not_eq_true] at hin
    obtain ⟨hlost, hne⟩ := hin
    have hold : y ∈ xs := by
      refine (List.mem_append.mp hy).resolve_right fun hyx => ?_
      exact hne (congrArg Sighting.hash (List.mem_singleton.mp hyx))
    refine ⟨?_, fun z hz hkept => h.precedes_of_lost hxs hc hold hlost hz hkept⟩
    rw [size_enforce, h.size_append hold hlost hc]
    omega

end Ledger

namespace Run

variable {r : Run} {n : ℕ} {b : BlockImport}

/-! ### Along a run -/

@[simp] theorem window_tracker (r : Run) (n : ℕ) : (r.tracker n).window = r.window := by
  refine session_induction (P := fun s => s.recorder.tracker.window = r.window) rfl ?_ n
  intro s a h
  rw [Session.tracker_next, Tracker.window_step, h]

theorem trimmed (r : Run) (n : ℕ) : (r.tracker n).Trimmed := by
  refine session_induction (P := fun s => s.recorder.tracker.Trimmed) (Nat.zero_le _) ?_ n
  intro s a h
  rw [Session.tracker_next]
  exact Tracker.trimmed_step h

/-- What is counted is what is accepted. -/
theorem counted?_eq {a : Arrival} (ha : r.arrivals[n]? = some a) :
    (r.tracker n).counted? a.now a.item
      = (r.accepted? n).map fun b => (r.ledger n).count (r.tracker n).registry b a.now := by
  obtain ⟨item, now⟩ := a
  rw [accepted?, ha]
  cases item with
  | foreign => rfl
  | event e =>
    cases e with
    | announce m => rfl
    | blockImport b =>
      simp only [Tracker.counted?]
      split <;> rfl

theorem ledger_succ_of_not_accepted (h : r.accepted? n = none) :
    r.ledger (n + 1) = r.ledger n := by
  by_cases hn : n < r.arrivals.length
  · obtain ⟨a, ha⟩ := getElem?_of_lt hn
    rw [ledger_succ ha]
    refine Tracker.ledger_of_not_counted (r.trimmed n) ?_
    rw [counted?_eq ha, h]
    rfl
  · exact ledger_succ_of_length_le (by omega)

/-- An accepted import adds its hash, if that is not held already, before the window is applied. -/
theorem ledger_succ_of_accepted (h : r.accepted? n = some b) :
    ∃ c : Ledger, r.ledger (n + 1) = c.enforce r.window
      ∧ c.heights = if (r.ledger n).contains b.hash then (r.ledger n).heights
          else (r.ledger n).heights ++ [(b.hash, b.height)] := by
  obtain ⟨a, ha⟩ := getElem?_of_lt (lt_length_of_accepted h)
  have hc := counted?_eq ha
  rw [h, Option.map_some] at hc
  refine ⟨((r.ledger n).count (r.tracker n).registry b a.now).sweep (r.tracker n).policy a.now,
    ?_, ?_⟩
  · rw [ledger_succ ha, (Tracker.step_of_counted hc).1, window_tracker]
  · rw [Ledger.heights_sweep, Ledger.heights_count]

/-- An import of a hash that was sighted before changes no height: the hash is held, or it was
lost and is lost again. -/
theorem heights_succ_of_sighted (hs : r.Steady)
    (h : Ledger.Leads (r.sightings n) (r.ledger n) r.window) (hb : r.accepted? n = some b)
    {x : Sighting} (hx : x ∈ r.sightings n) (hhash : x.hash = b.hash) :
    (r.ledger (n + 1)).heights = (r.ledger n).heights := by
  obtain ⟨c, hl, hc⟩ := ledger_succ_of_accepted hb
  rw [← hhash, ← hs.height_eq hx hb hhash] at hc
  rw [hl]
  cases hheld : (r.ledger n).contains x.hash with
  | false => exact h.again hx hheld (by simpa [hheld] using hc)
  | true =>
    rw [hheld, if_pos rfl] at hc
    rw [Ledger.enforce_of_size_le (h.congr hc).fits, hc]

/-- Every arrival leaves the first sightings, and what was lost stays lost. -/
theorem leads_succ (hs : r.Steady) (h : Ledger.Leads (r.sightings n) (r.ledger n) r.window) :
    Ledger.Leads (r.sightings (n + 1)) (r.ledger (n + 1)) r.window
      ∧ ∀ x ∈ r.sightings n, (r.ledger n).contains x.hash = false →
        (r.ledger (n + 1)).contains x.hash = false := by
  rw [sightings_succ]
  cases hb : r.accepted? n with
  | none =>
    rw [sighting?_of_not_accepted hb, Option.toList_none, List.append_nil,
      ledger_succ_of_not_accepted hb]
    exact ⟨h, fun _ _ hout => hout⟩
  | some b =>
    cases hx : r.sighting? n with
    | none =>
      obtain ⟨x, hmem, hhash⟩ := exists_sighting_of_repeated hb hx
      have hsame := heights_succ_of_sighted hs h hb hmem hhash
      rw [Option.toList_none, List.append_nil]
      exact ⟨h.congr hsame, fun y _ hout => (Ledger.contains_congr hsame y.hash).trans hout⟩
    | some x =>
      have hxs : Sighting.Chronological (r.sightings n ++ [x]) := by
        simpa [sightings_succ, hx] using r.chronological (n + 1)
      obtain ⟨b', hb', rfl, -⟩ := sighting?_eq_some_iff.mp hx
      cases hb.symm.trans hb'
      obtain ⟨c, hl, hc⟩ := ledger_succ_of_accepted hb
      have hnew : (r.ledger n).contains b.hash = false := by
        rw [← Bool.not_eq_true]
        intro hheld
        obtain ⟨y, hy, hhash⟩ := h.lists.exists_sighting hheld
        exact hxs.hash_ne_last y hy hhash
      rw [hnew, if_neg Bool.false_ne_true] at hc
      rw [hl]
      refine ⟨h.sighted hxs hc, fun y hy hout => ?_⟩
      rw [← Bool.not_eq_true] at hout ⊢
      intro hkept
      rcases (Ledger.contains_append hc _).mp (Ledger.contains_of_contains_enforce hkept) with
        hheld | hhash
      · exact hout hheld
      · exact hxs.hash_ne_last y hy hhash

theorem leads (hs : r.Steady) (n : ℕ) :
    Ledger.Leads (r.sightings n) (r.ledger n) r.window := by
  induction n with
  | zero => exact ⟨rfl, Nat.zero_le _, fun _ hx => absurd hx List.not_mem_nil⟩
  | succ n ih => exact (leads_succ hs ih).1

/-- In a run in which no hash comes with two heights, the ledger after every arrival holds the
first of all hashes sighted so far, as many as the window has places, ranked from the highest
to the lowest and at equal heights by their first accepted import. It lists them in the order
of these imports. A hash that was accepted before and is not held is never held again. -/
theorem ledger_eq_highest (r : Run) (hs : r.Steady) (n : ℕ) :
    (r.ledger n).keys
        = ((r.sightings n).filter fun x => x ∈ (ranking (r.sightings n)).take r.window.size).map
            Sighting.hash
    ∧ ∀ m b, m < n → r.accepted? m = some b → (r.ledger n).contains b.hash = false →
        ∀ k, n ≤ k → (r.ledger k).contains b.hash = false := by
  refine ⟨(leads hs n).keys_eq (r.chronological n), fun m b hm hb hout k hk => ?_⟩
  induction k, hk using Nat.le_induction with
  | base => exact hout
  | succ k hk ih =>
    obtain ⟨x, hx, hhash⟩ := exists_sighting hb (Nat.lt_of_lt_of_le hm hk)
    rw [← hhash] at ih ⊢
    exact (leads_succ hs (leads hs k)).2 x hx ih

/-- In a window for one block, `b` takes the place of `a`, which comes again in vain, and a
block as high as `b` comes too late. -/
def oneUp : Run where
  policy := ⟨3, 3, 1⟩
  window := ⟨1, Nat.one_pos⟩
  storage := ⟨none, none⟩
  files := .empty
  arrivals := [⟨.event (.blockImport ⟨1, 10, "a", 5⟩), 0⟩,
    ⟨.event (.blockImport ⟨1, 11, "b", 5⟩), 1⟩, ⟨.event (.blockImport ⟨2, 10, "a", 4⟩), 1⟩,
    ⟨.event (.blockImport ⟨2, 11, "c", 4⟩), 2⟩]

theorem steady_oneUp : oneUp.Steady := by
  have hheight : ∀ n b, oneUp.accepted? n = some b →
      b.height = if b.hash = ("a" : Text) then 10 else 11 := by
    intro n b h
    have hn : n < 4 := lt_length_of_accepted h
    have hcases : n = 0 ∨ n = 1 ∨ n = 2 ∨ n = 3 := by omega
    rcases hcases with rfl | rfl | rfl | rfl <;> cases h <;> rfl
  intro m n b b' hm hn hhash
  rw [hheight m b hm, hheight n b' hn, hhash]

theorem highest_of_oneUp :
    (oneUp.sightings 4).map Sighting.hash = ["a", "b", "c"] ∧ (oneUp.ledger 4).keys = ["b"]
      ∧ (oneUp.ledger 3).contains "a" = false := by
  obtain ⟨hkeys, -⟩ := ledger_eq_highest oneUp steady_oneUp 4
  obtain ⟨-, hgone⟩ := ledger_eq_highest oneUp steady_oneUp 2
  exact ⟨by decide, hkeys.trans (by decide), hgone 0 _ (by decide) rfl rfl 3 (by decide)⟩

end Run

end AuthorWatch
