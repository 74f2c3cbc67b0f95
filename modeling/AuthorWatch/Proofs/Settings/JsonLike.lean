import AuthorWatch.Proofs.Check.Basic
import AuthorWatch.Proofs.Json.Accepted
import AuthorWatch.Settings.Basic
import AuthorWatch.Settings.Environment

/-! Texts that look like JSON. What is read from one is never a text, and such a text is neither
the address of a feed nor the name of a log level. -/

namespace AuthorWatch

/-! ### What is read -/

namespace Json

variable {dialect : Dialect} {fuel depth : ℕ} {t rest s : Text} {v : Json}

theorem exists_array_of_items {done : List Json}
    (h : items dialect fuel depth done t = .ok (v, rest)) : ∃ found, v = array found := by
  induction fuel generalizing done t with
  | zero => cases h
  | succ fuel ih =>
    unfold items at h
    split at h
    · cases h
    · split at h
      · exact ih h
      · cases h
        exact ⟨_, rfl⟩
      · cases h

theorem exists_object_of_members {done : List (Text × Json)}
    (h : members dialect fuel depth done t = .ok (v, rest)) : ∃ found, v = object found := by
  induction fuel generalizing done t with
  | zero => cases h
  | succ fuel ih =>
    unfold members at h
    split at h
    · split at h
      · cases h
      · split at h
        · split at h
          · cases h
          · split at h
            · exact ih h
            · cases h
              exact ⟨_, rfl⟩
            · cases h
        · cases h
    · cases h

theorem ne_text_of_atom (h : atom t = .ok (v, rest)) : v ≠ text s := by
  obtain ⟨⟨word, hword⟩, -⟩ | ⟨negative, u, hnumber, -⟩ := cases_of_atom h
  · rintro rfl
    simp [words] at hword
  · obtain ⟨n, rfl⟩ | ⟨x, rfl⟩ := cases_of_number hnumber
    · exact nofun
    · exact nofun

/-- Only a quote begins a text. -/
theorem quote_of_value (h : value dialect fuel depth t = .ok (text s, rest)) :
    ∃ more, t = .char '"' :: more := by
  cases fuel with
  | zero => cases h
  | succ fuel =>
    unfold value at h
    split at h
    next more => exact ⟨more, rfl⟩
    next =>
      dsimp only at h
      split at h
      · split at h <;> cases h
      · split at h
        · cases h
        · obtain ⟨found, hfound⟩ := exists_array_of_items h
          cases hfound
    next =>
      dsimp only at h
      split at h
      · split at h <;> cases h
      · split at h
        · cases h
        · obtain ⟨found, hfound⟩ := exists_object_of_members h
          cases hfound
    next => exact absurd rfl (ne_text_of_atom h)

theorem quote_of_read (h : read dialect t = .ok (text s)) :
    ∃ more, skipSpace t = .char '"' :: more := by
  unfold read at h
  split at h
  · cases h
  next hvalue =>
    split at h
    · cases h
      exact quote_of_value hvalue
    · cases h

theorem isSpace_of_lt {g : Glyph} (h : 0x20 < g.codePoint) : isSpace g = false := by
  cases g with
  | surrogate u => rfl
  | char c =>
    simp only [isSpace, decide_eq_false_iff_not]
    rintro (rfl | rfl | rfl | rfl) <;> revert h <;> decide

end Json

/-! ### Letters of any case -/

namespace Glyph

/-- The letters of the words that are read as JSON in any case. -/
def wordLetters : List Char := ['a', 'e', 'f', 'l', 'n', 'r', 's', 't', 'u']

/-- What is checked for each of the letters, and not for all characters there are. -/
theorem forall_wordLetters {P : Char → Prop} [DecidablePred P]
    (h : (wordLetters.all fun c => decide (P c)) = true) : ∀ c ∈ wordLetters, P c :=
  fun c hc => of_decide_eq_true (List.all_eq_true.mp h c hc)

theorem eq_char_of_codePoint {g : Glyph} {c : Char} (h : g.codePoint = c.toNat) : g = .char c := by
  cases g with
  | char d => exact congrArg char (Char.ext (UInt32.toNat_inj.mp h))
  | surrogate u =>
    have hvalid : c.toNat.isValidChar := c.valid
    have hu := u.isLt
    simp only [codePoint] at h
    unfold Nat.isValidChar at hvalid
    omega

theorem toNat_of_ofNat? {n : ℕ} {c : Char} (h : ofNat? n = some (.char c)) : c.toNat = n := by
  unfold ofNat? at h
  split at h
  · cases h
  · split at h
    next hvalid =>
      cases h
      rw [Char.ofNat, dif_pos hvalid]
      rfl
    next => cases h

/-- All runs that lead to these letters have the distance of the Latin capitals. -/
theorem distance_of_lowerRuns {run : Nat × Nat × Nat × Int} (hrun : run ∈ lowerRuns) :
    ∀ c ∈ wordLetters, run.1 + run.2.2.2 ≤ c.toNat → c.toNat ≤ run.2.1 + run.2.2.2 →
      run.2.2.2 = 32 := by
  have hall : (lowerRuns.all fun run => wordLetters.all fun c => decide
      (run.1 + run.2.2.2 ≤ c.toNat → c.toNat ≤ run.2.1 + run.2.2.2 → run.2.2.2 = 32)) = true := by
    decide +kernel
  exact forall_wordLetters (List.all_eq_true.mp hall run hrun)

theorem toNat_toUpper : ∀ c ∈ wordLetters, c.toUpper.toNat + 32 = c.toNat :=
  forall_wordLetters (by decide)

/-- Such a letter is the lower-case form of itself and of its capital only. -/
theorem cases_of_lower {g : Glyph} {c : Char} (hc : c ∈ wordLetters) (h : g.lower = .char c) :
    g = .char c ∨ g = .char c.toUpper := by
  unfold lower at h
  dsimp only at h
  split at h
  next lo hi step distance hfind =>
    have hmem := List.mem_of_find?_eq_some hfind
    have hrun := List.find?_some hfind
    simp only [decide_eq_true_eq] at hrun
    cases hof : ofNat? (g.codePoint + distance).toNat with
    | none =>
      rw [hof] at h
      exact .inl h
    | some found =>
      rw [hof] at h
      cases h
      have hn := toNat_of_ofNat? hof
      have hupper := toNat_toUpper c hc
      have honto := distance_of_lowerRuns hmem c hc
      dsimp only at honto
      have hdistance := honto (by omega) (by omega)
      exact .inr (eq_char_of_codePoint (by omega))
  next => exact .inl h

theorem capitalsOf_wordLetter : ∀ c ∈ wordLetters,
    LogSettings.capitalsOf (.char c) = [.char c.toUpper]
      ∧ LogSettings.capitalsOf (.char c.toUpper) = [.char c.toUpper]
      ∧ c ≠ ':' ∧ c.toUpper ≠ ':' :=
  forall_wordLetters (by decide)

end Glyph

namespace Text

/-- A text whose lower-case form has such letters only is that form but for capitals. -/
theorem capitals_of_lower {t before : Text}
    (h : ∀ g ∈ lower.go before t, g ∈ Glyph.wordLetters.map Glyph.char) :
    t.flatMap LogSettings.capitalsOf = (lower.go before t).flatMap LogSettings.capitalsOf
      ∧ .char ':' ∉ t := by
  induction t generalizing before with
  | nil => exact ⟨rfl, nofun⟩
  | cons g after ih =>
    rw [lower.go, List.forall_mem_append] at h
    obtain ⟨hrest, hcolon⟩ := ih h.2
    -- the glyphs with a lower-case form of another kind do not give such letters
    have hone : lowerBetween before g after = [g.lower] := by
      have hother : ∀ c ∉ Glyph.wordLetters, .char c ∉ lowerBetween before g after := by
        intro c hc hmem
        obtain ⟨d, hd, heq⟩ := List.mem_map.mp (h.1 _ hmem)
        exact hc (Glyph.char.inj heq ▸ hd)
      unfold lowerBetween at hother ⊢
      split_ifs at hother ⊢
      · exact absurd List.mem_cons_self (hother 'ς' (by decide))
      · exact absurd List.mem_cons_self (hother 'σ' (by decide))
      · exact absurd (by simp) (hother '\u0307' (by decide))
      · rfl
    have hmem : g.lower ∈ lowerBetween before g after := by
      rw [hone]
      exact List.mem_singleton_self _
    obtain ⟨c, hc, hlower⟩ := List.mem_map.mp (h.1 _ hmem)
    obtain ⟨hsmall, hcapital, hne, hne'⟩ := Glyph.capitalsOf_wordLetter c hc
    have hg : LogSettings.capitalsOf g = [.char c.toUpper] ∧ g ≠ .char ':' := by
      rcases Glyph.cases_of_lower hc hlower.symm with rfl | rfl
      · exact ⟨hsmall, fun h => hne (Glyph.char.inj h)⟩
      · exact ⟨hcapital, fun h => hne' (Glyph.char.inj h)⟩
    constructor
    · rw [lower.go, hone, ← hlower, List.flatMap_cons, List.flatMap_append, hrest, hg.1,
        List.flatMap_singleton, hsmall]
    · exact List.not_mem_cons_of_ne_of_not_mem hg.2.symm hcolon

end Text

/-! ### How such texts begin -/

namespace Glyph

variable {g : Glyph}

/-- Brackets, points and digits. -/
def opensJson (g : Glyph) : Bool :=
  g = .char '[' || g = .char '\x7b' || g = .char '.' || g.isDigit

theorem range_of_digitRuns : ∀ run ∈ decimalRuns ++ otherDigitRuns,
    0x30 ≤ run.1 ∧ run.2 ≤ 0x39 ∨ 0x7A < run.1 := by decide +kernel

theorem range_of_isDigit (h : g.isDigit = true) :
    0x30 ≤ g.codePoint ∧ g.codePoint ≤ 0x39 ∨ 0x7A < g.codePoint := by
  unfold isDigit isDecimal at h
  rw [← List.any_append, List.any_eq_true] at h
  obtain ⟨run, hmem, hrun⟩ := h
  have hrange := range_of_digitRuns run hmem
  simp only [Bool.decide_and, Bool.and_eq_true, decide_eq_true_eq] at hrun
  omega

/-- They are no Latin letters, and stand behind the blank characters. -/
theorem range_of_opensJson (h : g.opensJson = true) :
    0x2E ≤ g.codePoint ∧ g.codePoint < 0x41 ∨ 0x5A < g.codePoint ∧ g.codePoint < 0x61
      ∨ 0x7A < g.codePoint := by
  unfold opensJson at h
  simp only [Bool.or_eq_true, decide_eq_true_eq] at h
  rcases h with ((rfl | rfl) | rfl) | hdigit
  · exact .inr (.inl (by decide))
  · exact .inr (.inr (by decide))
  · exact .inl (by decide)
  · have := range_of_isDigit hdigit
    omega

theorem ne_char_of_opensJson (h : g.opensJson = true) {c : Char}
    (hc : opensJson (.char c) = false) : g ≠ .char c := by
  rintro rfl
  rw [hc] at h
  cases h

theorem capitalsOf_of_opensJson (h : g.opensJson = true) : LogSettings.capitalsOf g = [g] := by
  have hrange := range_of_opensJson h
  unfold LogSettings.capitalsOf
  split
  case h_11 c _ _ _ _ _ _ _ _ _ _ =>
    have hsmall : ¬ ('a'.val ≤ c.val ∧ c.val ≤ 'z'.val) := by
      rw [UInt32.le_iff_toNat_le, UInt32.le_iff_toNat_le]
      show ¬ (97 ≤ c.toNat ∧ c.toNat ≤ 122)
      simp only [codePoint] at hrange
      omega
    have hupper : c.toUpper = c := dif_neg hsmall
    rw [hupper]
  case h_12 => rfl
  all_goals exact absurd h (by decide)

end Glyph

/-- A point that is left out is the only glyph that is. -/
theorem Environment.mem_withoutPoint {t : Text} {g : Glyph} (h : g ∈ t) :
    g = .char '.' ∨ g ∈ withoutPoint t := by
  induction t with
  | nil => cases h
  | cons first rest ih =>
    unfold withoutPoint
    rcases List.mem_cons.mp h with rfl | hrest
    · split
      next hpoint => exact .inl hpoint
      next => exact .inr List.mem_cons_self
    · split
      · exact .inr hrest
      · exact (ih hrest).imp_right (List.mem_cons_of_mem _)

theorem Environment.eq_cons_of_isEnclosed {first last : Char} {t : Text}
    (h : isEnclosed first last t = true) : ∃ rest, t = .char first :: rest := by
  unfold isEnclosed at h
  rw [Bool.and_eq_true, decide_eq_true_iff] at h
  obtain ⟨rest, ht⟩ := List.head?_eq_some_iff.mp h.1
  exact ⟨rest, ht⟩

/-- A text that looks like JSON begins so, or is one of the words in letters of any case. -/
theorem Environment.cases_of_looksLikeJson {t : Text} (h : looksLikeJson t = true) :
    (∃ g rest, t = g :: rest ∧ g.opensJson = true) ∨ t.lower ∈ words := by
  unfold looksLikeJson at h
  simp only [Bool.or_eq_true, List.contains_iff_mem] at h
  rcases h with ((hlist | hobject) | hword) | hnumber
  · obtain ⟨rest, rfl⟩ := eq_cons_of_isEnclosed hlist
    exact .inl ⟨_, rest, rfl, by decide⟩
  · obtain ⟨rest, rfl⟩ := eq_cons_of_isEnclosed hobject
    exact .inl ⟨_, rest, rfl, by decide⟩
  · exact .inr hword
  · cases t with
    | nil => cases hnumber
    | cons g rest =>
      refine .inl ⟨g, rest, rfl, ?_⟩
      unfold Text.isNumeral at hnumber
      rw [Bool.and_eq_true, List.all_eq_true] at hnumber
      unfold Glyph.opensJson
      rcases mem_withoutPoint (List.mem_cons_self (a := g) (l := rest)) with rfl | hmem
      · decide
      · rw [hnumber.2 g hmem, Bool.or_true]

/-! ### Addresses and log levels -/

/-- A scheme begins with a letter and ends with a colon. -/
theorem Address.exists_of_scheme {t : Text} (h : (splitScheme t).1 ≠ []) :
    (∃ g rest, t = g :: rest ∧ g.satisfies Char.isAlpha = true) ∧ .char ':' ∈ t := by
  unfold splitScheme at h
  dsimp only at h
  split at h
  next colon rest first more hrest hscheme =>
    split at h
    next hletters =>
      rw [Bool.and_eq_true] at hletters
      have hparts : t = first :: more ++ colon :: rest := by
        rw [← hrest, ← hscheme, List.takeWhile_append_dropWhile]
      have hcolon := List.head?_dropWhile_not (· ≠ .char ':') t
      rw [hrest] at hcolon
      have hcolon : colon = .char ':' := by simpa using hcolon
      exact ⟨⟨first, more ++ colon :: rest, hparts, hletters.1⟩, hparts ▸ by simp [hcolon]⟩
    next => exact absurd rfl h
  next => exact absurd rfl h

/-- An address keeps its glyphs but for those that it loses. -/
theorem Address.cleaned_cons {g : Glyph} {rest : Text} (hblank : 0x20 < g.codePoint) :
    cleaned (g :: rest) = g :: rest.filter fun g => !isDropped g := by
  have hkept : isDropped g = false := by
    unfold isDropped
    rw [Bool.or_eq_false_iff, Bool.or_eq_false_iff, decide_eq_false_iff_not,
      decide_eq_false_iff_not, decide_eq_false_iff_not]
    refine ⟨⟨?_, ?_⟩, ?_⟩ <;> rintro rfl <;> revert hblank <;> decide
  unfold cleaned
  rw [List.dropWhile_cons_of_neg (by simpa using hblank),
    List.filter_cons_of_pos (by simp [hkept])]

theorem Address.mem_of_mem_cleaned {t : Text} {g : Glyph} (h : g ∈ cleaned t) : g ∈ t :=
  (List.dropWhile_suffix _).subset (List.mem_filter.mp h).1

/-- Letters have code points of their own. -/
theorem Glyph.not_isAlpha_of_opensJson {g : Glyph} (h : g.opensJson = true) :
    g.satisfies Char.isAlpha = false := by
  have hrange := range_of_opensJson h
  cases g with
  | surrogate u => rfl
  | char c =>
    simp only [codePoint] at hrange
    rw [Bool.eq_false_iff]
    intro halpha
    have halpha : (decide ('A'.val ≤ c.val ∧ c.val ≤ 'Z'.val)
      || (decide ('a'.val ≤ c.val) && decide (c.val ≤ 'z'.val))) = true := halpha
    simp only [Bool.or_eq_true, Bool.and_eq_true, decide_eq_true_eq,
      UInt32.le_iff_toNat_le] at halpha
    have hletter : 65 ≤ c.toNat ∧ c.toNat ≤ 90 ∨ 97 ≤ c.toNat ∧ c.toNat ≤ 122 := halpha
    omega

/-- A word in letters of any case has the capitals of the word, and no colon. -/
theorem Text.capitals_of_word {t : Text} (h : t.lower ∈ Environment.words) :
    t.flatMap LogSettings.capitalsOf ∈ ["TRUE", "FALSE", "NULL"].map Text.ofString
      ∧ .char ':' ∉ t := by
  have hletters : ∀ word ∈ Environment.words, ∀ g ∈ word, g ∈ Glyph.wordLetters.map Glyph.char := by
    decide
  have hcapitals : ∀ word ∈ Environment.words, word.flatMap LogSettings.capitalsOf
      ∈ ["TRUE", "FALSE", "NULL"].map Text.ofString := by decide
  obtain ⟨hsame, hcolon⟩ := capitals_of_lower (hletters _ h)
  exact ⟨hsame ▸ hcapitals _ h, hcolon⟩

namespace Environment

variable {t : Text}

/-- A text that looks like JSON is no address of a feed. -/
theorem not_isFeed_of_looksLikeJson (h : looksLikeJson t = true) {a : Address}
    (ha : Address.split t = .ok a) : a.isFeed = false := by
  have hscheme : (Address.splitScheme (Address.cleaned t)).1 = [] := by
    by_contra hscheme
    obtain ⟨⟨g, rest, ht, halpha⟩, hcolon⟩ := Address.exists_of_scheme hscheme
    rcases cases_of_looksLikeJson h with ⟨first, more, rfl, hfirst⟩ | hword
    · have hrange := Glyph.range_of_opensJson hfirst
      rw [Address.cleaned_cons (by omega)] at ht
      cases ht
      rw [Glyph.not_isAlpha_of_opensJson hfirst] at halpha
      cases halpha
    · exact (Text.capitals_of_word hword).2 (Address.mem_of_mem_cleaned hcolon)
  unfold Address.split at ha
  dsimp only at ha
  split at ha
  · cases ha
  · cases ha
    rw [Address.isFeed, hscheme]
    rfl

theorem checkAddress_of_looksLikeJson (h : looksLikeJson t = true) (u : Text) :
    FeedSettings.checkAddress (.text t) ≠ .passed u := by
  intro hpassed
  obtain ⟨found, hfound, hcheck⟩ := Check.andThen_eq_passed_iff.mp hpassed
  cases hfound
  split at hcheck
  · cases hcheck
  next a ha =>
    rw [not_isFeed_of_looksLikeJson h ha] at hcheck
    cases hcheck

theorem ofName?_of_looksLikeJson (h : looksLikeJson t = true) :
    Level.ofName? (t.flatMap LogSettings.capitalsOf) = none := by
  rcases cases_of_looksLikeJson h with ⟨g, rest, rfl, hg⟩ | hword
  · -- the names of the levels begin with capitals
    have hnames : ∀ level ∈ Level.all, ∀ first ∈ level.name.head?,
        0x41 ≤ first.codePoint ∧ first.codePoint ≤ 0x5A := by decide
    rw [Level.ofName?, List.find?_eq_none]
    intro level hlevel hname
    have hfirst : level.name.head? = some g := by
      rw [decide_eq_true_iff.mp hname, List.flatMap_cons, Glyph.capitalsOf_of_opensJson hg]
      rfl
    have hcapital := hnames level hlevel g hfirst
    have hrange := Glyph.range_of_opensJson hg
    omega
  · have hnone : ∀ t ∈ ["TRUE", "FALSE", "NULL"].map Text.ofString, Level.ofName? t = none := by
      decide
    exact hnone _ (Text.capitals_of_word hword).1

theorem checkLevel_of_looksLikeJson (h : looksLikeJson t = true) (level : Level) :
    LogSettings.checkLevel (.text t) ≠ .passed level := by
  intro hpassed
  obtain ⟨found, hfound, hcheck⟩ := Check.andThen_eq_passed_iff.mp hpassed
  cases hfound
  rw [ofName?_of_looksLikeJson h] at hcheck
  cases hcheck

/-- What is read from a text is that text, or no text at all. -/
theorem ne_text_of_value {path : List Text} {v : Json} (h : value path t = .ok v)
    (hne : v ≠ .text t) : looksLikeJson t = true ∧ ∀ s, v ≠ .text s := by
  unfold value at h
  split at h
  · cases h
    exact absurd rfl hne
  next htried =>
    have hlooks : looksLikeJson t = true := by
      rw [Bool.or_eq_true, not_or] at htried
      simpa using htried.2
    refine ⟨hlooks, ?_⟩
    rintro s rfl
    split at h
    next hread =>
      cases h
      obtain ⟨more, hquote⟩ := Json.quote_of_read hread
      split at hquote
      next hword =>
        have hwords : ∀ word ∈ words, (Json.skipSpace word).head? ≠ some (.char '"') := by decide
        exact hwords _ (List.contains_iff_mem.mp hword) (by rw [hquote]; rfl)
      next hother =>
        rcases cases_of_looksLikeJson hlooks with ⟨g, rest, rfl, hg⟩ | hword
        · have hrange := Glyph.range_of_opensJson hg
          have hspace : Json.isSpace g = false := Json.isSpace_of_lt (by omega)
          rw [Json.skipSpace, List.dropWhile_cons_of_neg (by simp [hspace])] at hquote
          exact Glyph.ne_char_of_opensJson hg (by decide) (List.cons.inj hquote).1
        · exact hother (List.contains_iff_mem.mpr hword)
    next => cases h; exact hne rfl
    next => cases h
    next => cases h

end Environment

end AuthorWatch
