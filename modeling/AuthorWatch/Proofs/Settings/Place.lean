import AuthorWatch.Proofs.Settings.Paths
import AuthorWatch.Settings.Environment
import Mathlib.Data.List.Basic

/-! Placing a value at a path of an object. It fails where the path leads on through a value that
is no object, and what stands there decides the error. Otherwise the value is found at the path,
objects on the way to it, and all else where it was. -/

namespace AuthorWatch.Environment

open Json (found?)

variable {v : Json} {path : List Text} {members : List (Text × Json)} {e : EnvironmentError}

/-- Before its end the path leads to a value that is no object. What it is, and how far from the
end it stands, decides the error. -/
def Blocked (path : List Text) (v : Json) (e : EnvironmentError) : Prop :=
  ∃ q x, q <+: path ∧ q ≠ path ∧ found? q v = some (.value x)
    ∧ e = if path.length = q.length + 1 then .noMembers x else .noSteps x

theorem blocked_cons_iff {key : Text} {rest : List Text} : Blocked (key :: rest) (.object members) e
    ↔ ∃ w, Assoc.get? key members = some w ∧ Blocked rest w e := by
  constructor
  · rintro ⟨q, x, hq, hne, hx, he⟩
    rcases List.prefix_cons_iff.mp hq with rfl | ⟨q, rfl, hrest⟩
    · cases hx
    · obtain ⟨w, hw, hfound⟩ := Option.bind_eq_some_iff.mp hx
      exact ⟨w, hw, q, x, hrest, by simpa using hne, hfound, by simpa using he⟩
  · rintro ⟨w, hw, q, x, hq, hne, hx, he⟩
    refine ⟨key :: q, x, List.cons_prefix_cons.mpr ⟨rfl, hq⟩, by simpa using hne, ?_,
      by simpa using he⟩
    rw [Json.found?_cons_object, hw]
    exact hx

/-- A value that is no object is in the way of every path that has a step. -/
theorem blocked_iff_of_value {key : Text} {rest : List Text}
    (hv : ∀ members, v ≠ .object members) : Blocked (key :: rest) v e
      ↔ e = if rest.isEmpty then .noMembers v else .noSteps v := by
  have hvalue : found? [] v = some (.value v) := by
    cases v with
    | object members => exact absurd rfl (hv members)
    | _ => rfl
  constructor
  · rintro ⟨q, x, hq, hne, hx, rfl⟩
    cases q with
    | nil =>
      rw [hvalue] at hx
      cases hx
      cases rest <;> simp
    | cons other q =>
      obtain ⟨members, -, rfl, -⟩ := Json.exists_of_found?_cons hx
      exact absurd rfl (hv members)
  · rintro rfl
    refine ⟨[], v, List.nil_prefix, nofun, hvalue, ?_⟩
    cases rest <;> simp

theorem map_eq_error_iff {ε α β : Type} {x : Except ε α} {f : α → β} {e : ε} :
    x.map f = .error e ↔ x = .error e := by
  cases x <;> simp [Except.map]

/-- A value cannot be placed exactly where another one is in the way. -/
theorem place_eq_error_iff : place v path members = .error e ↔ Blocked path (.object members) e := by
  fun_induction place v path members with
  | case1 members =>
    refine iff_of_false nofun ?_
    rintro ⟨q, x, hq, hne, -⟩
    exact hne (List.prefix_nil.mp hq)
  | case2 key members =>
    refine iff_of_false nofun ?_
    rw [blocked_cons_iff]
    rintro ⟨w, -, q, x, hq, hne, -⟩
    exact hne (List.prefix_nil.mp hq)
  | case3 key next rest members hget ih =>
    rw [map_eq_error_iff, ih]
    simp [blocked_cons_iff, hget, Assoc.get?]
  | case4 key next rest members inner hget ih =>
    rw [map_eq_error_iff, ih]
    simp [blocked_cons_iff, hget]
  | case5 key next rest members found hfound hget =>
    have hvalue : ∀ members, found ≠ .object members := fun inner h => hfound inner h
    simp only [blocked_cons_iff, hget, Option.some.injEq, exists_eq_left', Except.error.injEq,
      blocked_iff_of_value hvalue]
    exact eq_comm

theorem found?_ne_value_of_place {placed : List (Text × Json)} (h : place v path members = .ok placed)
    {q : List Text} (hq : q <+: path) (hne : q ≠ path) (x : Json) :
    found? q (.object members) ≠ some (.value x) := by
  intro hx
  have herror := place_eq_error_iff (v := v).mpr ⟨q, x, hq, hne, hx, rfl⟩
  rw [h] at herror
  cases herror

/-- Below a key: the rest of a path was placed in the object that is there, or in a new one. -/
theorem found?_insert_placed {key : Text} {rest : List Text}
    {members inner placed : List (Text × Json)}
    (hinner : ∀ q, ¬ q <+: rest →
      found? q (.object inner) = (Assoc.get? key members).bind (found? q))
    (hplaced : ∀ q, found? q (.object placed)
      = if rest <+: q then found? (q.drop rest.length) v
        else if q <+: rest then some .mapping else found? q (.object inner)) (q : List Text) :
    found? q (.object (Assoc.insert key (.object placed) members))
      = if key :: rest <+: q then found? (q.drop (key :: rest).length) v
        else if q <+: key :: rest then some .mapping else found? q (.object members) := by
  cases q with
  | nil => simp
  | cons other q =>
    rw [Json.found?_cons_object, Assoc.get?_insert]
    by_cases hk : key = other
    · subst hk
      simp only [if_true, Option.bind_some, hplaced, List.cons_prefix_cons, true_and,
        List.length_cons, List.drop_succ_cons, Json.found?_cons_object]
      split
      · rfl
      · split
        · rfl
        next hq => exact hinner q hq
    · have hk' : ¬ other = key := fun e => hk e.symm
      simp [hk, hk', List.cons_prefix_cons]

/-- A placed value is found at its path and below; on the way to it are objects, and all other
paths lead where they did. -/
theorem found?_place {later : List (Text × Json)} (h : place v path members = .ok later)
    (hpath : path ≠ []) (q : List Text) : found? q (.object later)
      = if path <+: q then found? (q.drop path.length) v
        else if q <+: path then some .mapping else found? q (.object members) := by
  fun_induction place v path members generalizing later q with
  | case1 members => exact absurd rfl hpath
  | case2 key members =>
    cases h
    cases q with
    | nil => simp
    | cons other q =>
      rw [Json.found?_cons_object, Assoc.get?_insert]
      by_cases hk : key = other
      · subst hk
        simp
      · have hk' : ¬ other = key := fun e => hk e.symm
        simp [hk, hk', List.cons_prefix_cons]
  | case3 key next rest members hget ih =>
    cases hplace : place v (next :: rest) [] with
    | error e => rw [hplace] at h; cases h
    | ok placed =>
      rw [hplace] at h
      cases h
      have hnew : ∀ q, ¬ q <+: next :: rest →
          found? q (.object []) = (Assoc.get? key members).bind (found? q) := by
        intro q hq
        rw [hget]
        cases q with
        | nil => exact absurd List.nil_prefix hq
        | cons other q => rfl
      exact found?_insert_placed hnew (ih hplace nofun) q
  | case4 key next rest members inner hget ih =>
    cases hplace : place v (next :: rest) inner with
    | error e => rw [hplace] at h; cases h
    | ok placed =>
      rw [hplace] at h
      cases h
      exact found?_insert_placed (fun q _ => by rw [hget]; rfl) (ih hplace nofun) q
  | case5 key next rest members found hfound hget => cases h

/-- Where the same value stands in the way, the error is the same. -/
theorem place_error_of_found {e : EnvironmentError} {others : List (Text × Json)}
    (h : place v path members = .error e)
    (hothers : ∀ q, q <+: path → q ≠ path → ∀ x, found? q (.object members) = some (.value x) →
      found? q (.object others) = some (.value x)) : place v path others = .error e := by
  obtain ⟨q, x, hq, hne, hx, he⟩ := place_eq_error_iff.mp h
  exact place_eq_error_iff.mpr ⟨q, x, hq, hne, hothers q hq hne x hx, he⟩

end AuthorWatch.Environment
