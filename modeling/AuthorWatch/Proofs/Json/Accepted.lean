import AuthorWatch.Json.Reader
import Mathlib.Data.List.TakeWhile
import Mathlib.Tactic.Common

/-! What a text passes on to the value that is read from it. Every part of the reader leaves the
end of what it was given, so it is enough to look at texts and at values without parts: what they
inherit from the text, arrays and objects have by their items and members. -/

namespace AuthorWatch.Json

variable {dialect : Dialect} {fuel depth : ℕ} {t rest : Text} {v : Json} {g : Glyph}

/-! ### What is left -/

theorem suffix_skipSpace (t : Text) : skipSpace t <:+ t := List.dropWhile_suffix _

theorem suffix_of_skipSpace (h : skipSpace t = g :: rest) : rest <:+ t :=
  (h ▸ List.suffix_cons g rest).trans (suffix_skipSpace t)

theorem suffix_takeDigits (t : Text) : (Decimal.takeDigits t).2 <:+ t := by
  induction t with
  | nil => exact List.suffix_rfl
  | cons g rest ih =>
    unfold Decimal.takeDigits
    split
    · exact ih.trans (List.suffix_cons g rest)
    · exact List.suffix_rfl

theorem suffix_hex4? {n : ℕ} (h : hex4? t = some (n, rest)) : rest <:+ t := by
  unfold hex4? at h
  split at h
  next a b c d after =>
    simp only [Option.bind_eq_bind, Option.bind_eq_some_iff, Option.some.injEq, Prod.mk.injEq] at h
    obtain ⟨_, -, _, -, _, -, _, -, -, rfl⟩ := h
    exact ⟨[a, b, c, d], rfl⟩
  next => cases h

theorem suffix_partner? {high : ℕ} (h : partner? high t = some (g, rest)) : rest <:+ t := by
  unfold partner? at h
  split at h
  next after =>
    simp only [Option.bind_eq_bind, Option.bind_eq_some_iff, Option.some.injEq, Prod.mk.injEq] at h
    obtain ⟨⟨low, left⟩, hlow, _, -, -, rfl⟩ := h
    exact (suffix_hex4? hlow).trans ⟨[.char '\\', .char 'u'], rfl⟩
  next => cases h

/-- An escaped glyph is one of two surrogates that are partners, or stands for itself. -/
theorem cases_of_unicodeEscape? (h : unicodeEscape? dialect t = some (g, rest)) :
    ∃ n left, hex4? t = some (n, left) ∧ (partner? n left = some (g, rest)
      ∨ rest = left ∧ (g.isSurrogate = true → dialect.loneSurrogates = true)) := by
  simp only [unicodeEscape?, Option.bind_eq_bind, Option.bind_eq_some_iff] at h
  obtain ⟨⟨n, left⟩, hn, h⟩ := h
  refine ⟨n, left, hn, ?_⟩
  cases hpartner : partner? n left with
  | some found =>
    rw [hpartner] at h
    exact .inl h
  | none =>
    simp only [hpartner, Option.bind_eq_some_iff] at h
    obtain ⟨single, -, h⟩ := h
    cases single with
    | char c =>
      cases h
      exact .inr ⟨rfl, nofun⟩
    | surrogate u =>
      dsimp only at h
      split at h
      next hlone =>
        cases h
        exact .inr ⟨rfl, fun _ => hlone⟩
      next => cases h

theorem suffix_unicodeEscape? (h : unicodeEscape? dialect t = some (g, rest)) : rest <:+ t := by
  obtain ⟨n, left, hn, hpartner | ⟨rfl, -⟩⟩ := cases_of_unicodeEscape? h
  · exact (suffix_partner? hpartner).trans (suffix_hex4? hn)
  · exact suffix_hex4? hn

theorem suffix_escape? (h : escape? dialect t = some (g, rest)) : rest <:+ t := by
  unfold escape? at h
  split at h
  · exact (suffix_unicodeEscape? h).trans (List.suffix_cons ..)
  all_goals cases h
  all_goals exact List.suffix_cons ..

theorem suffix_string {done s : Text} (h : string dialect fuel done t = .ok (s, rest)) :
    rest <:+ t := by
  induction fuel generalizing done t with
  | zero => cases h
  | succ fuel ih =>
    unfold string at h
    split at h
    · cases h
    · cases h
    next first after heq =>
      cases heq
      have hafter : after <:+ first :: after := List.suffix_cons first after
      split at h
      · cases h
        exact hafter
      · split at h
        · split at h
          next hescape => exact (ih h).trans ((suffix_escape? hescape).trans hafter)
          next => cases h
        · split at h
          · cases h
          · exact (ih h).trans hafter

theorem suffix_fraction (t : Text) : (fraction t).2 <:+ t := by
  unfold fraction
  split
  next after =>
    split
    · exact List.suffix_rfl
    · exact (suffix_takeDigits after).trans (List.suffix_cons ..)
  · exact List.suffix_rfl

theorem suffix_of_takeDigits {ds : List ℕ} (h : Decimal.takeDigits t = (ds, rest)) :
    rest <:+ t := by
  have hsuffix := suffix_takeDigits t
  rwa [h] at hsuffix

theorem suffix_exponent? {e : ℤ} (h : exponent? t = some (e, rest)) : rest <:+ t := by
  unfold exponent? at h
  split at h
  next c after =>
    have hafter := List.suffix_cons (.char c) after
    dsimp only at h
    split at h
    · -- after its sign, if it has one, an exponent is digits
      split at h
      · split at h
        · cases h
        next hdigits =>
          cases h
          exact (suffix_of_takeDigits hdigits).trans ((List.suffix_cons ..).trans hafter)
      · split at h
        · cases h
        next hdigits =>
          cases h
          exact (suffix_of_takeDigits hdigits).trans ((List.suffix_cons ..).trans hafter)
      · split at h
        · cases h
        next hdigits =>
          cases h
          exact (suffix_of_takeDigits hdigits).trans hafter
    · cases h
  · cases h

theorem suffix_number {negative : Bool} (h : number negative t = .ok (v, rest)) : rest <:+ t := by
  have hdigits := suffix_takeDigits t
  unfold number at h
  split at h
  · cases h
  next whole after _ hwhole =>
    rw [hwhole] at hdigits
    have hleft : (if whole.head? = some 0 then ([0], t.drop 1) else (whole, after)).2 <:+ t := by
      split
      · exact List.drop_suffix 1 t
      · exact hdigits
    generalize (if whole.head? = some 0 then ([0], t.drop 1) else (whole, after)) = found
      at h hleft
    have hfraction := (suffix_fraction found.2).trans hleft
    dsimp only at h
    split at h
    · split at h
      · cases h
      · cases h
        exact hleft
    · cases h
      cases hexponent : exponent? (fraction found.2).2 with
      | none => exact hfraction
      | some pair => exact (suffix_exponent? hexponent).trans hfraction

theorem cases_of_number {negative : Bool} (h : number negative t = .ok (v, rest)) :
    (∃ n, v = int n) ∨ ∃ x, v = float x := by
  unfold number at h
  split at h
  · cases h
  next whole after _ _ =>
    generalize (if whole.head? = some 0 then ([0], t.drop 1) else (whole, after)) = found at h
    dsimp only at h
    split at h
    · split at h
      · cases h
      · cases h
        exact .inl ⟨_, rfl⟩
    · cases h
      exact .inr ⟨_, rfl⟩

/-- A value without parts is a word, or a number that may have a sign in front. -/
theorem cases_of_atom (h : atom t = .ok (v, rest)) :
    (∃ word, (word, v) ∈ words) ∧ rest <:+ t
      ∨ ∃ negative u, number negative u = .ok (v, rest) ∧ u <:+ t := by
  unfold atom at h
  split at h
  next found hfound =>
    cases h
    obtain ⟨⟨word, value⟩, hmem, hword⟩ := List.exists_of_findSome?_eq_some hfound
    obtain ⟨after, hafter, hpair⟩ := Option.map_eq_some_iff.mp hword
    cases hpair
    simp only [afterWord?, Option.ite_none_right_eq_some, Option.some.injEq] at hafter
    exact .inl ⟨⟨word, hmem⟩, hafter.2 ▸ List.drop_suffix word.length t⟩
  next =>
    split at h
    · exact .inr ⟨true, _, h, List.suffix_cons ..⟩
    · exact .inr ⟨false, t, h, List.suffix_rfl⟩

theorem suffix_atom (h : atom t = .ok (v, rest)) : rest <:+ t := by
  obtain ⟨-, hrest⟩ | ⟨negative, u, hnumber, hu⟩ := cases_of_atom h
  · exact hrest
  · exact (suffix_number hnumber).trans hu

/-! ### What a value inherits -/

/-- What holds of a text holds of its ends; it gives strings that are fine, and values without
parts that have the property; and arrays and objects have it if their parts do. -/
structure Inherited (dialect : Dialect) (Left Fine : Text → Prop) (P : Json → Prop) : Prop where
  left : ∀ {t rest}, rest <:+ t → Left t → Left rest
  fine : ∀ {fuel t s rest}, Left t → string dialect fuel [] t = .ok (s, rest) → Fine s
  text : ∀ {s}, Fine s → P (text s)
  atom : ∀ {t v rest}, Left t → atom t = .ok (v, rest) → P v
  array : ∀ {items}, (∀ v ∈ items, P v) → P (array items)
  object : ∀ {members}, (∀ member ∈ members, Fine member.1 ∧ P member.2) →
    P (dialect.object members)

variable {Left Fine : Text → Prop} {P : Json → Prop}

/-- With this fuel every value that is read has the property. -/
def InheritedValues (dialect : Dialect) (Left : Text → Prop) (P : Json → Prop) (fuel : ℕ) : Prop :=
  ∀ {depth : ℕ} {t rest : Text} {v : Json}, Left t → value dialect fuel depth t = .ok (v, rest) →
    P v ∧ rest <:+ t

def InheritedItems (dialect : Dialect) (Left : Text → Prop) (P : Json → Prop) (fuel : ℕ) : Prop :=
  ∀ {depth : ℕ} {done : List Json} {t rest : Text} {v : Json}, Left t → (∀ item ∈ done, P item) →
    items dialect fuel depth done t = .ok (v, rest) → P v ∧ rest <:+ t

def InheritedMembers (dialect : Dialect) (Left Fine : Text → Prop) (P : Json → Prop) (fuel : ℕ) :
    Prop :=
  ∀ {depth : ℕ} {done : List (Text × Json)} {t rest : Text} {v : Json}, Left t →
    (∀ member ∈ done, Fine member.1 ∧ P member.2) →
    members dialect fuel depth done t = .ok (v, rest) → P v ∧ rest <:+ t

theorem inheritedValues_succ (hp : Inherited dialect Left Fine P)
    (hitems : InheritedItems dialect Left P fuel)
    (hmembers : InheritedMembers dialect Left Fine P fuel) :
    InheritedValues dialect Left P (fuel + 1) := by
  intro depth t rest v ht h
  unfold value at h
  split at h
  next after =>
    have hafter := List.suffix_cons (.char '"') after
    split at h
    next s left hs =>
      cases h
      exact ⟨hp.text (hp.fine (hp.left hafter ht) hs), (suffix_string hs).trans hafter⟩
    next => cases h
  next after =>
    have hinside := (suffix_skipSpace after).trans (List.suffix_cons (.char '[') after)
    dsimp only at h
    split at h
    next left hclosed =>
      split at h
      · cases h
      · cases h
        exact ⟨hp.array nofun, (suffix_of_skipSpace hclosed).trans (List.suffix_cons ..)⟩
    next =>
      split at h
      · cases h
      · obtain ⟨hv, hrest⟩ := hitems (hp.left hinside ht) (List.forall_mem_nil _) h
        exact ⟨hv, hrest.trans hinside⟩
  next after =>
    have hinside := (suffix_skipSpace after).trans (List.suffix_cons (.char '\x7b') after)
    dsimp only at h
    split at h
    next left hclosed =>
      split at h
      · cases h
      · cases h
        have hempty : object [] = dialect.object [] := by
          rw [Dialect.object]
          split <;> rfl
        refine ⟨?_, (suffix_of_skipSpace hclosed).trans (List.suffix_cons ..)⟩
        rw [hempty]
        exact hp.object nofun
    next =>
      split at h
      · cases h
      · obtain ⟨hv, hrest⟩ := hmembers (hp.left hinside ht) (List.forall_mem_nil _) h
        exact ⟨hv, hrest.trans hinside⟩
  next => exact ⟨hp.atom ht h, suffix_atom h⟩

theorem inheritedItems_succ (hp : Inherited dialect Left Fine P)
    (hvalues : InheritedValues dialect Left P fuel) (hitems : InheritedItems dialect Left P fuel) :
    InheritedItems dialect Left P (fuel + 1) := by
  intro depth done t rest v ht hdone h
  unfold items at h
  split at h
  · cases h
  next item after hitem =>
    obtain ⟨hfound, hafter⟩ := hvalues ht hitem
    have hmore : ∀ v ∈ item :: done, P v := List.forall_mem_cons.mpr ⟨hfound, hdone⟩
    split at h
    next more hcomma =>
      have hleft := (suffix_skipSpace more).trans ((suffix_of_skipSpace hcomma).trans hafter)
      obtain ⟨hv, hrest⟩ := hitems (hp.left hleft ht) hmore h
      exact ⟨hv, hrest.trans hleft⟩
    next hclosed =>
      cases h
      exact ⟨hp.array fun v hv => hmore v (List.mem_reverse.mp hv),
        (suffix_of_skipSpace hclosed).trans hafter⟩
    next => cases h

theorem inheritedMembers_succ (hp : Inherited dialect Left Fine P)
    (hvalues : InheritedValues dialect Left P fuel)
    (hmembers : InheritedMembers dialect Left Fine P fuel) :
    InheritedMembers dialect Left Fine P (fuel + 1) := by
  intro depth done t rest v ht hdone h
  unfold members at h
  split at h
  next quoted =>
    have hquoted := List.suffix_cons (.char '"') quoted
    split at h
    · cases h
    next key after hkey =>
      have hafter := (suffix_string hkey).trans hquoted
      split at h
      next more hcolon =>
        have hitem := (suffix_skipSpace more).trans ((suffix_of_skipSpace hcolon).trans hafter)
        split at h
        · cases h
        next item last hvalue =>
          obtain ⟨hfound, hlast⟩ := hvalues (hp.left hitem ht) hvalue
          have hmore : ∀ member ∈ (key, item) :: done, Fine member.1 ∧ P member.2 :=
            List.forall_mem_cons.mpr ⟨⟨hp.fine (hp.left hquoted ht) hkey, hfound⟩, hdone⟩
          split at h
          next others hcomma =>
            have hleft := (suffix_skipSpace others).trans
              ((suffix_of_skipSpace hcomma).trans (hlast.trans hitem))
            obtain ⟨hv, hrest⟩ := hmembers (hp.left hleft ht) hmore h
            exact ⟨hv, hrest.trans hleft⟩
          next hclosed =>
            cases h
            exact ⟨hp.object fun member hm => hmore member (List.mem_reverse.mp hm),
              (suffix_of_skipSpace hclosed).trans (hlast.trans hitem)⟩
          next => cases h
      next => cases h
  next => cases h

theorem inherited (hp : Inherited dialect Left Fine P) (fuel : ℕ) :
    InheritedValues dialect Left P fuel ∧ InheritedItems dialect Left P fuel
      ∧ InheritedMembers dialect Left Fine P fuel := by
  induction fuel with
  | zero =>
    refine ⟨fun _ h => ?_, fun _ _ h => ?_, fun _ _ h => ?_⟩ <;> cases h
  | succ fuel ih =>
    obtain ⟨hvalues, hitems, hmembers⟩ := ih
    exact ⟨inheritedValues_succ hp hitems hmembers, inheritedItems_succ hp hvalues hitems,
      inheritedMembers_succ hp hvalues hmembers⟩

/-- A property that values inherit from their text holds of every value that is read. -/
theorem Inherited.of_read (hp : Inherited dialect Left Fine P) (ht : Left t)
    (h : read dialect t = .ok v) : P v := by
  unfold read at h
  split at h
  · cases h
  next found after hvalue =>
    split at h
    · cases h
      exact ((inherited hp _).1 (hp.left (suffix_skipSpace t) ht) hvalue).1
    · cases h

end AuthorWatch.Json
