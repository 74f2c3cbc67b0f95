import AuthorWatch.Proofs.Recorder.Run
import Mathlib.Data.List.Pairwise
import Mathlib.Data.List.Sort

/-! The sightings of a run: for each hash that was ever imported, the height and the arrival of
the first accepted import. They are listed as they came, and ranked by height and then by
arrival. -/

namespace AuthorWatch

/-- What the first accepted import of a hash says. -/
structure Sighting where
  hash : Text
  height : Int
  /-- The place of the import among the arrivals of the run. -/
  arrival : ℕ
  deriving DecidableEq

namespace Sighting

variable {x y : Sighting} {xs : List Sighting}

/-- The first is higher, or as high and came no later. -/
def Precedes (x y : Sighting) : Prop :=
  y.height < x.height ∨ x.height = y.height ∧ x.arrival ≤ y.arrival

instance : DecidableRel Precedes := fun _ _ => inferInstanceAs (Decidable (_ ∨ _ ∧ _))

instance : Std.Total Precedes where
  total x y := by simp only [Precedes]; omega

instance : IsTrans Sighting Precedes where
  trans x y z := by simp only [Precedes]; omega

/-- Each came after those before it, under a hash of its own. -/
def Chronological (xs : List Sighting) : Prop :=
  xs.Pairwise fun x y => x.arrival < y.arrival ∧ x.hash ≠ y.hash

theorem Chronological.ne (h : Chronological xs) (hx : x ∈ xs) (hy : y ∈ xs) (hne : x ≠ y) :
    x.arrival ≠ y.arrival ∧ x.hash ≠ y.hash := by
  have : Std.Symm fun x y : Sighting => x.arrival ≠ y.arrival ∧ x.hash ≠ y.hash :=
    ⟨fun _ _ hxy => ⟨hxy.1.symm, hxy.2.symm⟩⟩
  have hdiffer : xs.Pairwise fun x y => x.arrival ≠ y.arrival ∧ x.hash ≠ y.hash :=
    h.imp fun hxy => ⟨Nat.ne_of_lt hxy.1, hxy.2⟩
  exact hdiffer.forall hx hy hne

theorem Chronological.eq_of_hash (h : Chronological xs) (hx : x ∈ xs) (hy : y ∈ xs)
    (heq : x.hash = y.hash) : x = y := by
  by_contra hne
  exact (h.ne hx hy hne).2 heq

theorem Chronological.hash_ne_last (h : Chronological (xs ++ [x])) :
    ∀ y ∈ xs, y.hash ≠ x.hash :=
  fun y hy => ((List.pairwise_append.mp h).2.2 y hy x (List.mem_singleton_self x)).2

/-! ### The ranking -/

/-- From the highest to the lowest; equal heights as they came. -/
def ranking (xs : List Sighting) : List Sighting := xs.insertionSort Precedes

theorem ranking_perm (xs : List Sighting) : (ranking xs).Perm xs := List.perm_insertionSort ..

/-- If some of the sightings precede all others, then the ranking lists them first. -/
theorem ranking_eq_append (h : Chronological xs) {p : Sighting → Bool}
    (hlead : ∀ x ∈ xs, ∀ y ∈ xs, p x = true → p y = false → x.Precedes y) :
    ranking xs = ranking (xs.filter p) ++ ranking (xs.filter fun x => !p x) := by
  have hperm : (ranking (xs.filter p) ++ ranking (xs.filter fun x => !p x)).Perm xs :=
    ((ranking_perm _).append (ranking_perm _)).trans (List.filter_append_perm p xs)
  refine List.Perm.eq_of_pairwise ?_ (List.pairwise_insertionSort Precedes xs) ?_
    ((ranking_perm xs).trans hperm.symm)
  · intro x y hx hy hxy hyx
    by_contra hne
    have harrival := (h.ne ((ranking_perm xs).mem_iff.mp hx) (hperm.mem_iff.mp hy) hne).1
    simp only [Precedes] at hxy hyx
    omega
  · refine List.pairwise_append.mpr
      ⟨List.pairwise_insertionSort .., List.pairwise_insertionSort .., fun x hx y hy => ?_⟩
    obtain ⟨hx, hpx⟩ := List.mem_filter.mp ((ranking_perm _).mem_iff.mp hx)
    obtain ⟨hy, hpy⟩ := List.mem_filter.mp ((ranking_perm _).mem_iff.mp hy)
    exact hlead x hx y hy hpx (by simpa using hpy)

/-- Sightings that precede all others, and are as many as are asked for if there are others,
are the first of the ranking. -/
theorem mem_take_ranking_iff (h : Chronological xs) {p : Sighting → Bool} {size : ℕ}
    (hlead : ∀ x ∈ xs, ∀ y ∈ xs, p x = true → p y = false → x.Precedes y)
    (hle : (xs.filter p).length ≤ size)
    (hfull : ∀ x ∈ xs, p x = false → (xs.filter p).length = size) (hx : x ∈ xs) :
    x ∈ (ranking xs).take size ↔ p x = true := by
  have hlength : (ranking (xs.filter p)).length = (xs.filter p).length := (ranking_perm _).length_eq
  have htake : (ranking xs).take size = ranking (xs.filter p) := by
    rw [ranking_eq_append h hlead]
    rcases Nat.lt_or_eq_of_le hle with hlt | heq
    · have hnone : xs.filter (fun x => !p x) = [] := by
        refine List.filter_eq_nil_iff.mpr fun y hy hpy => ?_
        exact absurd (hfull y hy (by simpa using hpy)) (Nat.ne_of_lt hlt)
      rw [hnone]
      simp only [ranking, List.insertionSort_nil, List.append_nil]
      exact List.take_of_length_le (by simpa [ranking] using hle)
    · rw [List.take_append_of_le_length (by omega), List.take_of_length_le (by omega)]
  rw [htake, (ranking_perm _).mem_iff, List.mem_filter]
  exact and_iff_right hx

end Sighting

namespace Run

variable {r : Run} {m n : ℕ} {b : BlockImport}

/-- The import that arrives, if it is accepted. -/
def accepted? (r : Run) (n : ℕ) : Option BlockImport :=
  match r.arrivals[n]? with
  | some ⟨.event (.blockImport b), _⟩ => if Ledger.accepts b then some b else none
  | _ => none

theorem lt_length_of_accepted (h : r.accepted? n = some b) : n < r.arrivals.length := by
  by_contra hn
  rw [accepted?, List.getElem?_eq_none (Nat.not_lt.mp hn)] at h
  cases h

/-- No accepted import gives a hash another height. -/
def Steady (r : Run) : Prop :=
  ∀ m n b b', r.accepted? m = some b → r.accepted? n = some b' → b.hash = b'.hash →
    b.height = b'.height

/-- The sighting that arrives: an accepted import, and none of its hash before. -/
def sighting? (r : Run) (n : ℕ) : Option Sighting :=
  match r.accepted? n with
  | some b =>
    if ∃ m < n, (r.accepted? m).map BlockImport.hash = some b.hash then none
    else some ⟨b.hash, b.height, n⟩
  | none => none

/-- The sightings before arrival `n`, as they came. -/
def sightings (r : Run) (n : ℕ) : List Sighting := (List.range n).filterMap r.sighting?

theorem sighting?_eq_some_iff {x : Sighting} :
    r.sighting? n = some x ↔ ∃ b, r.accepted? n = some b ∧ x = ⟨b.hash, b.height, n⟩
      ∧ ∀ m < n, ∀ b', r.accepted? m = some b' → b'.hash ≠ b.hash := by
  unfold sighting?
  cases h : r.accepted? n with
  | none => simp
  | some b =>
    simp only [Option.map_eq_some_iff, Option.ite_none_left_eq_some, Option.some.injEq,
      exists_eq_left', not_exists, not_and]
    exact ⟨fun ⟨hnew, hx⟩ => ⟨hx.symm, hnew⟩, fun ⟨hx, hnew⟩ => ⟨hnew, hx.symm⟩⟩

theorem sighting?_of_not_accepted (h : r.accepted? n = none) : r.sighting? n = none := by
  rw [sighting?, h]

theorem sightings_succ (n : ℕ) :
    r.sightings (n + 1) = r.sightings n ++ (r.sighting? n).toList := by
  rw [sightings, List.range_succ, List.filterMap_append]
  cases h : r.sighting? n <;> simp [sightings, h]

theorem exists_accepted_of_mem {x : Sighting} (h : x ∈ r.sightings n) :
    ∃ b m, m < n ∧ r.accepted? m = some b ∧ x = ⟨b.hash, b.height, m⟩ := by
  obtain ⟨m, hm, hx⟩ := List.mem_filterMap.mp h
  obtain ⟨b, hb, rfl, -⟩ := sighting?_eq_some_iff.mp hx
  exact ⟨b, m, List.mem_range.mp hm, hb, rfl⟩

theorem chronological (r : Run) (n : ℕ) : Sighting.Chronological (r.sightings n) := by
  refine List.Pairwise.filterMap r.sighting? ?_ List.pairwise_lt_range
  intro m k hmk x hx y hy
  obtain ⟨b, hb, rfl, -⟩ := sighting?_eq_some_iff.mp hx
  obtain ⟨b', hb', rfl, hnew⟩ := sighting?_eq_some_iff.mp hy
  exact ⟨hmk, hnew m hmk b hb⟩

/-- Every hash of an accepted import was sighted. -/
theorem exists_sighting (hb : r.accepted? m = some b) (hm : m < n) :
    ∃ x ∈ r.sightings n, x.hash = b.hash := by
  induction m using Nat.strong_induction_on generalizing b with
  | _ m ih =>
    by_cases hnew : ∀ k < m, ∀ b', r.accepted? k = some b' → b'.hash ≠ b.hash
    · refine ⟨⟨b.hash, b.height, m⟩, List.mem_filterMap.mpr ⟨m, List.mem_range.mpr hm, ?_⟩, rfl⟩
      exact sighting?_eq_some_iff.mpr ⟨b, hb, rfl, hnew⟩
    · simp only [not_forall, not_not] at hnew
      obtain ⟨k, hk, b', hb', heq⟩ := hnew
      obtain ⟨x, hx, hhash⟩ := ih k hk hb' (by omega)
      exact ⟨x, hx, hhash.trans heq⟩

theorem exists_sighting_of_repeated (hb : r.accepted? n = some b) (h : r.sighting? n = none) :
    ∃ x ∈ r.sightings n, x.hash = b.hash := by
  simpa [sightings_succ, h] using exists_sighting hb (Nat.lt_succ_self n)

theorem Steady.height_eq (hs : r.Steady) {x : Sighting} (hx : x ∈ r.sightings n)
    (hb : r.accepted? m = some b) (hhash : x.hash = b.hash) : x.height = b.height := by
  obtain ⟨b', k, -, hb', rfl⟩ := exists_accepted_of_mem hx
  exact hs k m b' b hb' hb hhash

end Run

end AuthorWatch
