import AuthorWatch.Event
import AuthorWatch.Proofs.OrderedMap
import Mathlib.Data.List.Forall2
import Mathlib.Tactic.Common

/-! Which checks pass, and with what value. A check of several fields passes only if every
field does. -/

namespace AuthorWatch.Check

variable {α β : Type} {a : α} {b : β}

@[simp] theorem map_passed (f : α → β) (a : α) : f <$> passed a = passed (f a) := rfl

@[simp] theorem seq_passed (f : α → β) (a : α) : passed f <*> passed a = passed (f a) := rfl

theorem map_eq_passed_iff {f : α → β} {x : Check α} :
    f <$> x = passed b ↔ ∃ a, x = passed a ∧ f a = b := by
  cases x with
  | passed a => simp
  | failed cs =>
    have hf : f <$> failed cs = failed cs := rfl
    simp [hf]

theorem seq_eq_passed_iff {f : Check (α → β)} {x : Check α} :
    f <*> x = passed b ↔ ∃ g a, f = passed g ∧ x = passed a ∧ g a = b := by
  cases f with
  | passed g =>
    cases x with
    | passed a => simp
    | failed cs =>
      have hf : passed g <*> failed cs = failed cs := rfl
      simp [hf]
  | failed cs =>
    cases x with
    | passed a =>
      have hf : (failed cs : Check (α → β)) <*> passed a = failed cs := rfl
      simp [hf]
    | failed ds =>
      have hf : (failed cs : Check (α → β)) <*> failed ds = failed (cs ++ ds) := rfl
      simp [hf]

theorem under_eq_passed_iff {key : Text} {x : Check α} : x.under key = passed a ↔ x = passed a := by
  cases x <;> simp [under]

theorem andThen_eq_passed_iff {x : Check α} {f : α → Except Fault β} :
    x.andThen f = passed b ↔ ∃ a, x = passed a ∧ f a = .ok b := by
  cases x with
  | passed a =>
    cases hf : f a <;> simp [andThen, ofExcept, hf]
  | failed cs => simp [andThen]

/-- A check of an object's members passes for objects only. -/
theorem exists_of_object {read : List (Text × Json) → Check α} {v : Json}
    (h : object read v = passed a) : ∃ members, v = .object members ∧ read members = passed a := by
  cases v with
  | object members => exact ⟨members, rfl, h⟩
  | _ => cases h

/-! ### Fields -/

variable {read : Json → Check α} {key : Text} {members : List (Text × Json)}

theorem exists_mem_of_required (h : required read key members = passed a) :
    ∃ member ∈ members, read member.2 = passed a := by
  unfold required at h
  split at h
  next v hv =>
    exact ⟨(key, v), List.mem_reverse.mp (Assoc.mem_of_get? hv), under_eq_passed_iff.mp h⟩
  next => cases h

theorem exists_of_required (h : required read key members = passed a) :
    ∃ v, read v = passed a := by
  obtain ⟨member, -, hmember⟩ := exists_mem_of_required h
  exact ⟨member.2, hmember⟩

theorem exists_mem_of_optional {fallback : α} (h : optional fallback read key members = passed a) :
    a = fallback ∨ ∃ member ∈ members, read member.2 = passed a := by
  unfold optional at h
  split at h
  next v hv =>
    exact .inr ⟨(key, v), List.mem_reverse.mp (Assoc.mem_of_get? hv), under_eq_passed_iff.mp h⟩
  next => cases h; exact .inl rfl

theorem exists_of_optional {fallback : α} (h : optional fallback read key members = passed a) :
    a = fallback ∨ ∃ v, read v = passed a := by
  refine (exists_mem_of_optional h).imp_right ?_
  rintro ⟨member, -, hmember⟩
  exact ⟨member.2, hmember⟩

theorem le_of_integerAtLeast {bound n : Int} {v : Json} (h : integerAtLeast bound v = passed n) :
    bound ≤ n := by
  unfold integerAtLeast at h
  cases hv : v.toInteger with
  | error e => rw [hv] at h; cases h
  | ok m =>
    rw [hv] at h
    simp only [ofExcept, andThen] at h
    split_ifs at h with hle
    cases h
    exact hle

theorem lt_of_integerAbove {bound n : Int} {v : Json} (h : integerAbove bound v = passed n) :
    bound < n := by
  obtain ⟨m, -, hm⟩ := andThen_eq_passed_iff.mp h
  split_ifs at hm with hlt
  cases hm
  exact hlt

@[simp] theorem integerAtLeast_int {bound n : Int} (h : bound ≤ n) :
    integerAtLeast bound (.int n) = passed n := by
  simp [integerAtLeast, Json.toInteger, ofExcept, andThen, h]

/-! ### Lists -/

theorem each_of_passed {f : α → Check β} {g : β → α} {bs : List β}
    (h : ∀ b ∈ bs, f (g b) = passed b) : each f (bs.map g) = passed bs := by
  induction bs with
  | nil => rfl
  | cons b bs ih =>
    rw [List.map_cons, each, h b (List.mem_cons_self ..),
      ih fun c hc => h c (List.mem_cons_of_mem _ hc)]
    rfl

/-- A list passes if each of its elements does. -/
theorem each_eq_passed_iff {f : α → Check β} {as : List α} {bs : List β} :
    each f as = passed bs ↔ List.Forall₂ (fun a b => f a = passed b) as bs := by
  induction as generalizing bs with
  | nil => simp [each, eq_comm]
  | cons a as ih =>
    rw [each, seq_eq_passed_iff, List.forall₂_cons_left_iff]
    constructor
    · rintro ⟨g, cs, hg, hcs, rfl⟩
      obtain ⟨b, hb, rfl⟩ := map_eq_passed_iff.mp hg
      exact ⟨b, cs, hb, ih.mp hcs, rfl⟩
    · rintro ⟨b, cs, hb, hcs, rfl⟩
      exact ⟨List.cons b, cs, map_eq_passed_iff.mpr ⟨b, hb, rfl⟩, ih.mpr hcs, rfl⟩

theorem exists_each_iff {f : α → Check β} {as : List α} :
    (∃ bs, each f as = passed bs) ↔ ∀ a ∈ as, ∃ b, f a = passed b := by
  simp only [each_eq_passed_iff]
  induction as with
  | nil => simp
  | cons a as ih =>
    simp only [List.forall₂_cons_left_iff, List.forall_mem_cons, ← ih]
    constructor
    · rintro ⟨_, b, bs, hb, hbs, rfl⟩
      exact ⟨⟨b, hb⟩, bs, hbs⟩
    · rintro ⟨⟨b, hb⟩, bs, hbs⟩
      exact ⟨b :: bs, b, bs, hb, hbs, rfl⟩

theorem exists_mem_of_forall₂ {r : α → β → Prop} {as : List α} {bs : List β}
    (h : List.Forall₂ r as bs) {b : β} (hb : b ∈ bs) : ∃ a ∈ as, r a b := by
  obtain ⟨i, hi, rfl⟩ := List.mem_iff_getElem.mp hb
  have hlt : i < as.length := h.length_eq ▸ hi
  exact ⟨as[i], List.getElem_mem hlt, h.get hlt hi⟩

theorem exists_mem_of_each {f : α → Check β} {as : List α} {bs : List β}
    (h : each f as = passed bs) {b : β} (hb : b ∈ bs) : ∃ a ∈ as, f a = passed b :=
  exists_mem_of_forall₂ (each_eq_passed_iff.mp h) hb

theorem exists_of_each {f : α → Check β} {as : List α} {bs : List β} (h : each f as = passed bs) :
    ∀ b ∈ bs, ∃ a, f a = passed b := by
  intro b hb
  obtain ⟨a, -, ha⟩ := exists_mem_of_each h hb
  exact ⟨a, ha⟩

end AuthorWatch.Check
