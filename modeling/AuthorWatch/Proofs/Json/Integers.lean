import AuthorWatch.Check.Scalar
import AuthorWatch.Proofs.Json.Accepted
import AuthorWatch.Proofs.Json.Reading
import AuthorWatch.Proofs.OrderedMap

/-! Integers that were read are short enough to be read again: the reader refuses longer ones,
and so do the checks that take an integer from a text or a floating-point number. -/

namespace AuthorWatch.Json

theorem fits_iff (n : ℤ) : Fits n ↔ n.natAbs < 10 ^ Decimal.maxDigits :=
  Decimal.length_digits_le_iff (by decide)

theorem fits_of_le {m n : ℤ} (h : Fits n) (hle : m.natAbs ≤ n.natAbs) : Fits m :=
  (fits_iff m).mpr (Nat.lt_of_le_of_lt hle ((fits_iff n).mp h))

/-- Integers of machine size are short. -/
theorem fits_of_lt {n : ℤ} (h : n.natAbs < 10 ^ 19) : Fits n :=
  (fits_iff n).mpr (Nat.lt_of_lt_of_le h (Nat.pow_le_pow_right (by decide) (by decide)))

theorem fits_of_digits (negative : Bool) {ds : List ℕ} (hd : ∀ d ∈ ds, d < 10)
    (hlength : ds.length ≤ Decimal.maxDigits) :
    Fits (if negative then -(Decimal.value ds : ℤ) else Decimal.value ds) := by
  have habs : (if negative then -(Decimal.value ds : ℤ) else Decimal.value ds).natAbs
      = Decimal.value ds := by
    split <;> simp
  rw [fits_iff, habs]
  exact Nat.lt_of_lt_of_le (Decimal.value_lt hd) (Nat.pow_le_pow_right (by decide) hlength)

mutual

/-- Every integer of a value is short enough to be read. -/
def Short : Json → Prop
  | int n => Fits n
  | array items => ShortItems items
  | object members => ShortMembers members
  | _ => True

def ShortItems : List Json → Prop
  | [] => True
  | item :: rest => Short item ∧ ShortItems rest

def ShortMembers : List (Text × Json) → Prop
  | [] => True
  | (_, item) :: rest => Short item ∧ ShortMembers rest

end

theorem shortItems_iff {items : List Json} : ShortItems items ↔ ∀ v ∈ items, Short v := by
  induction items with
  | nil => simp [ShortItems]
  | cons item rest ih => simp [ShortItems, ih]

theorem shortMembers_iff {members : List (Text × Json)} :
    ShortMembers members ↔ ∀ member ∈ members, Short member.2 := by
  induction members with
  | nil => simp [ShortMembers]
  | cons member rest ih =>
    obtain ⟨key, item⟩ := member
    simp [ShortMembers, ih]

/-! ### Reading -/

theorem short_of_number {negative : Bool} {t rest : Text} {v : Json}
    (h : number negative t = .ok (v, rest)) : Short v := by
  have hdigits := Decimal.takeDigits_lt t
  unfold number at h
  split at h
  · cases h
  next whole after _ hwhole =>
    rw [hwhole] at hdigits
    have hlt : ∀ d ∈ (if whole.head? = some 0 then ([0], t.drop 1) else (whole, after)).1,
        d < 10 := by
      split
      · simp
      · exact hdigits
    -- a zero in front ends the numeral; only the digits count from here on
    generalize (if whole.head? = some 0 then ([0], t.drop 1) else (whole, after)) = found at h hlt
    dsimp only at h
    split at h
    · split at h
      · cases h
      next hlength =>
        cases h
        exact fits_of_digits negative hlt (Nat.not_lt.mp hlength)
    · cases h
      trivial

theorem short_of_atom {t rest : Text} {v : Json} (h : atom t = .ok (v, rest)) : Short v := by
  obtain ⟨⟨word, hword⟩, -⟩ | ⟨negative, u, hnumber, -⟩ := cases_of_atom h
  · simp only [words, List.mem_cons, Prod.mk.injEq, List.not_mem_nil, or_false] at hword
    rcases hword with ⟨-, rfl⟩ | ⟨-, rfl⟩ | ⟨-, rfl⟩ | ⟨-, rfl⟩ | ⟨-, rfl⟩ | ⟨-, rfl⟩ <;> trivial
  · exact short_of_number hnumber

variable {dialect : Dialect}

theorem short_object {found : List (Text × Json)} (h : ∀ member ∈ found, Short member.2) :
    Short (dialect.object found) := by
  refine shortMembers_iff.mpr fun member hmember => ?_
  split at hmember
  · exact h member hmember
  · rcases Assoc.mem_of_mem_insertAll hmember with hnil | hmember
    · cases hnil
    · exact h member hmember

theorem inherited_short (dialect : Dialect) :
    Inherited dialect (fun _ => True) (fun _ => True) Short where
  left _ _ := trivial
  fine _ _ := trivial
  text _ := trivial
  atom _ h := short_of_atom h
  array h := shortItems_iff.mpr h
  object h := short_object fun member hmember => (h member hmember).2

theorem short_of_read {t : Text} {v : Json} (h : read dialect t = .ok v) : Short v :=
  (inherited_short dialect).of_read trivial h

/-! ### Coercions -/

theorem foldlM_groups_lt {groups : List Text} {done ds : List ℕ} (hdone : ∀ d ∈ done, d < 10)
    (h : groups.foldlM (fun ds group =>
      match Decimal.takeDigits group with
      | ([], _) => none
      | (more, []) => some (ds ++ more)
      | _ => none) done = some ds) : ∀ d ∈ ds, d < 10 := by
  induction groups generalizing done with
  | nil => cases h; exact hdone
  | cons group groups ih =>
    rw [List.foldlM_cons, Option.bind_eq_bind, Option.bind_eq_some_iff] at h
    obtain ⟨next, hnext, h⟩ := h
    have hlt := Decimal.takeDigits_lt group
    split at hnext
    · cases hnext
    next more _ heq =>
      cases hnext
      rw [heq] at hlt
      exact ih (List.forall_mem_append.mpr ⟨hdone, hlt⟩) h
    · cases hnext

theorem fits_of_numeral {t : Text} {n : ℤ} (h : Numeral.integer t = .ok n) : Fits n := by
  unfold Numeral.integer at h
  dsimp only at h
  split at h
  · cases h
  next ds hds =>
    obtain ⟨whole, -, hgroups⟩ := Option.bind_eq_some_iff.mp hds
    have hlt : ∀ d ∈ ds, d < 10 := foldlM_groups_lt (by simp) hgroups
    split at h
    · cases h
    next hlength =>
      cases h
      rw [← Decimal.value_dropWhile]
      refine fits_of_digits _ (fun d hd => ?_) (Nat.not_lt.mp hlength)
      exact hlt d (List.dropWhile_subset _ hd)

/-- An integer that a check takes from a value is short if those of the value are. -/
theorem fits_of_toInteger {v : Json} {n : ℤ} (hv : Short v) (h : v.toInteger = .ok n) : Fits n := by
  cases v with
  | int m => cases h; exact hv
  | bool b => cases h; cases b <;> exact fits_of_lt (by decide)
  | float x =>
    simp only [toInteger, integerOfFloat] at h
    split at h
    · cases h
    · split at h
      · cases h
      · split at h
        next hlt =>
          cases h
          exact fits_of_lt (Nat.lt_of_lt_of_le hlt (by decide))
        · cases h
  | text t => exact fits_of_numeral h
  | _ => cases h

theorem fits_of_integerAtLeast {bound : ℤ} {v : Json} {n : ℤ} (hv : Short v)
    (h : Check.integerAtLeast bound v = .passed n) : Fits n := by
  unfold Check.integerAtLeast at h
  cases hn : v.toInteger with
  | error e => rw [hn] at h; cases h
  | ok m =>
    rw [hn] at h
    simp only [Check.ofExcept, Check.andThen] at h
    split_ifs at h
    cases h
    exact fits_of_toInteger hv hn

end AuthorWatch.Json
