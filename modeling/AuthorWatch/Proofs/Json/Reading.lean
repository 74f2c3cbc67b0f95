import AuthorWatch.Json.Reader
import AuthorWatch.Json.Writer
import AuthorWatch.Proofs.Number.Decimal

/-! A written document is read back. Documents hold no floating-point numbers, their
integers are short enough to be read, and their nesting is bounded; what follows a value
in a document is the end of the text or a mark that cannot go on a numeral. -/

namespace AuthorWatch.Json

/-- An integer that is short enough to be read. -/
def Fits (n : ℤ) : Prop := (Decimal.digits n.natAbs).length ≤ Decimal.maxDigits

instance (n : ℤ) : Decidable (Fits n) := inferInstanceAs (Decidable (_ ≤ _))

theorem isShort_iff {n : ℤ} : Decimal.isShort n = true ↔ Fits n := decide_eq_true_iff

@[simp] theorem Piece.toText_text (t : Text) : (Piece.text t).toText = t := rfl

@[simp] theorem Piece.toText_integer (n : ℤ) : (Piece.integer n).toText = Decimal.ofInt n := rfl

@[simp] theorem write_int (n : ℤ) : (int n).write = Decimal.ofInt n := by simp [write, pieces]

@[simp] theorem write_text (t : Text) : (text t).write = quoted t := by simp [write, pieces]

mutual

/-- Values that a document may hold, with the nesting that is allowed for them. -/
def Storable : ℕ → Json → Prop
  | _, null => True
  | _, bool _ => True
  | _, int n => Fits n
  | _, float _ => False
  | _, text _ => True
  | depth, array items => items = [] ∨ 0 < depth ∧ StorableItems (depth - 1) items
  | depth, object members => members = [] ∨ 0 < depth ∧ StorableMembers (depth - 1) members

def StorableItems : ℕ → List Json → Prop
  | _, [] => True
  | depth, item :: rest => Storable depth item ∧ StorableItems depth rest

def StorableMembers : ℕ → List (Text × Json) → Prop
  | _, [] => True
  | depth, (_, item) :: rest => Storable depth item ∧ StorableMembers depth rest

end

/-! ### Marks -/

/-- What may follow a value in a document. -/
def Closes (t : Text) : Prop :=
  ∀ g ∈ t.head?, g = .char ',' ∨ g = .char ']' ∨ g = .char '\x7d'

theorem closes_nil : Closes [] := by simp [Closes]

theorem closes_comma (t : Text) : Closes (.char ',' :: t) := by simp [Closes]

theorem closes_bracket (t : Text) : Closes (.char ']' :: t) := by simp [Closes]

theorem closes_brace (t : Text) : Closes (.char '\x7d' :: t) := by simp [Closes]

theorem cases_of_closes {t : Text} (h : Closes t) :
    t = [] ∨ (∃ u, t = .char ',' :: u) ∨ (∃ u, t = .char ']' :: u)
      ∨ ∃ u, t = .char '\x7d' :: u := by
  cases t with
  | nil => exact .inl rfl
  | cons g u =>
    rcases h g rfl with rfl | rfl | rfl
    · exact .inr (.inl ⟨u, rfl⟩)
    · exact .inr (.inr (.inl ⟨u, rfl⟩))
    · exact .inr (.inr (.inr ⟨u, rfl⟩))

theorem stops_of_closes {t : Text} (h : Closes t) : Decimal.Stops t := by
  intro g hg
  rcases h g hg with rfl | rfl | rfl <;> decide

theorem skipSpace_cons {g : Glyph} (h : isSpace g = false) (t : Text) :
    skipSpace (g :: t) = g :: t := by
  rw [skipSpace, List.dropWhile_cons, if_neg (by simp [h])]

/-! ### Strings -/

theorem hex4?_control {n : ℕ} (h : n < 0x20) (rest : Text) :
    hex4? (Text.hexDigits 4 n ++ rest) = some (n, rest) := by
  interval_cases n <;> rfl

theorem unicodeEscape?_control (dialect : Dialect) {c : Char} (h : c.toNat < 0x20) (rest : Text) :
    unicodeEscape? dialect (Text.hexDigits 4 c.toNat ++ rest) = some (.char c, rest) := by
  have hpair : ∀ low, pair? c.toNat low = none := fun low => by
    rw [pair?, if_neg (by omega)]
  have hpartner : partner? c.toNat rest = none := by
    unfold partner?
    split
    · simp [hpair]
    · rfl
  have hvalid : c.toNat.isValidChar := c.valid
  have hof : Glyph.ofNat? c.toNat = some (.char c) := by
    rw [Glyph.ofNat?, dif_neg (by omega), if_pos hvalid, Char.ofNat_toNat]
  simp [unicodeEscape?, hex4?_control h, hpartner, hof]

/-- A glyph is read back from the way it is written between quotes. -/
theorem string_escaped (dialect : Dialect) (g : Glyph) (fuel : ℕ) (done rest : Text) :
    string dialect (fuel + 1) done (escaped g ++ rest) = string dialect fuel (g :: done) rest := by
  unfold escaped
  split
  · rfl
  · rfl
  · rfl
  · rfl
  · rfl
  · rfl
  · rfl
  next _ hquote hback _ _ _ _ _ =>
    dsimp only
    split_ifs with hcontrol
    · cases g with
      | surrogate u => simp [Glyph.codePoint] at hcontrol; omega
      | char c =>
        have hescape : escape? dialect (.char 'u' :: (Text.hexDigits 4 c.toNat ++ rest))
            = some (.char c, rest) := unicodeEscape?_control dialect hcontrol rest
        have htext : ("\\u" ++ Text.hexDigits 4 c.toNat : Text) ++ rest
            = .char '\\' :: .char 'u' :: (Text.hexDigits 4 c.toNat ++ rest) := rfl
        rw [Glyph.codePoint, htext, string, if_neg (by decide), if_pos rfl, hescape]
    · rw [List.singleton_append, string, if_neg hquote, if_neg hback, if_neg hcontrol]

theorem string_quoted (dialect : Dialect) (t : Text) {fuel : ℕ} (h : t.length < fuel)
    (done rest : Text) :
    string dialect fuel done (t.flatMap escaped ++ .char '"' :: rest)
      = .ok (done.reverse ++ t, rest) := by
  induction t generalizing fuel done with
  | nil =>
    obtain ⟨k, rfl⟩ : ∃ k, fuel = k + 1 := ⟨fuel - 1, by omega⟩
    simp [string]
  | cons g t ih =>
    obtain ⟨k, rfl⟩ : ∃ k, fuel = k + 1 := ⟨fuel - 1, by omega⟩
    rw [List.flatMap_cons, List.append_assoc, string_escaped, ih (by simpa using h)]
    simp

theorem escaped_ne_nil (g : Glyph) : escaped g ≠ [] := by
  unfold escaped
  split
  case h_8 =>
    dsimp only
    split_ifs
    · exact List.append_ne_nil_of_left_ne_nil (by decide) _
    · exact List.cons_ne_nil _ _
  all_goals decide

theorem length_le_escaped (t : Text) : t.length ≤ (t.flatMap escaped).length := by
  induction t with
  | nil => exact Nat.le_refl 0
  | cons g t ih =>
    have hg : 0 < (escaped g).length := List.length_pos_iff.mpr (escaped_ne_nil g)
    rw [List.flatMap_cons, List.length_append, List.length_cons]
    omega

/-! ### Values without parts -/

theorem fraction_of_closes {t : Text} (h : Closes t) : fraction t = ([], t) := by
  rcases cases_of_closes h with rfl | ⟨u, rfl⟩ | ⟨u, rfl⟩ | ⟨u, rfl⟩ <;> rfl

theorem exponent?_of_closes {t : Text} (h : Closes t) : exponent? t = none := by
  rcases cases_of_closes h with rfl | ⟨u, rfl⟩ | ⟨u, rfl⟩ | ⟨u, rfl⟩ <;> rfl

/-- A sign and the digits of a number are read as an integer. -/
theorem number_ofNat (negative : Bool) {n : ℕ} (hn : (Decimal.digits n).length ≤ Decimal.maxDigits)
    {rest : Text} (hr : Closes rest) :
    number negative (Decimal.ofNat n ++ rest) = .ok (.int (if negative then -n else n), rest) := by
  have htake := Decimal.takeDigits_ofNat n (stops_of_closes hr)
  have hvalue : Decimal.value (Decimal.digits n) = n := Decimal.value_digits n
  have hzero : (Decimal.digits n).head? = some 0 →
      ([0], (Decimal.ofNat n ++ rest).drop 1) = (Decimal.digits n, rest) := by
    intro h
    rw [Decimal.ofNat, Decimal.digits_eq_of_head n h]
    rfl
  unfold number
  rw [htake]
  cases hd : Decimal.digits n with
  | nil => exact absurd hd (Decimal.digits_ne_nil n)
  | cons d ds =>
    rw [hd] at hzero hvalue hn
    have hpair : (if (d :: ds).head? = some 0 then
        ([0], (Decimal.ofNat n ++ rest).drop 1) else (d :: ds, rest)) = (d :: ds, rest) := by
      split_ifs with h
      · exact hzero h
      · rfl
    simp only [hpair, fraction_of_closes hr, exponent?_of_closes hr, Nat.not_lt.mpr hn, if_false,
      hvalue]

/-- The words that are values begin with no digit, and not with a minus and a digit. -/
theorem words_of_digit {d : ℕ} (h : d < 10) (t : Text) :
    (words.findSome? fun (word, value) => (afterWord? word (Decimal.digit d :: t)).map (value, ·))
      = none := by
  interval_cases d <;> rfl

theorem words_of_minus_digit {d : ℕ} (h : d < 10) (t : Text) :
    (words.findSome? fun (word, value) =>
      (afterWord? word (.char '-' :: Decimal.digit d :: t)).map (value, ·)) = none := by
  interval_cases d <;> rfl

theorem exists_digit_ofNat (n : ℕ) : ∃ d t, d < 10 ∧ Decimal.ofNat n = Decimal.digit d :: t := by
  cases hd : Decimal.digits n with
  | nil => exact absurd hd (Decimal.digits_ne_nil n)
  | cons d ds =>
    refine ⟨d, ds.map Decimal.digit, Decimal.digits_lt n d (by simp [hd]), ?_⟩
    rw [Decimal.ofNat, hd, List.map_cons]

theorem digit_ne_minus {d : ℕ} (h : d < 10) : Decimal.digit d ≠ .char '-' := by
  interval_cases d <;> decide

theorem atom_ofInt {i : ℤ} (hi : Fits i) {rest : Text} (hr : Closes rest) :
    atom (Decimal.ofInt i ++ rest) = .ok (.int i, rest) := by
  cases i with
  | ofNat n =>
    obtain ⟨d, t, hd, ht⟩ := exists_digit_ofNat n
    have hnumber := number_ofNat false (n := n) hi hr
    rw [Decimal.ofInt]
    rw [ht, List.cons_append] at hnumber ⊢
    rw [atom, words_of_digit hd]
    · exact hnumber
    · intro u heq
      exact digit_ne_minus hd (List.cons.inj heq).1
  | negSucc n =>
    obtain ⟨d, t, hd, ht⟩ := exists_digit_ofNat (n + 1)
    have hnumber := number_ofNat true (n := n + 1) hi hr
    rw [Decimal.ofInt, List.cons_append]
    rw [ht, List.cons_append] at hnumber ⊢
    rw [atom, words_of_minus_digit hd]
    exact hnumber

/-! ### Values -/

/-- A written value begins with a mark, a digit or a letter. -/
theorem exists_head_write {depth : ℕ} {v : Json} (h : Storable depth v) :
    ∃ g t, v.write = g :: t ∧ isSpace g = false ∧ g ≠ .char ']' := by
  cases v with
  | null => exact ⟨_, _, rfl, by decide, by decide⟩
  | bool b => cases b <;> exact ⟨_, _, rfl, by decide, by decide⟩
  | int i =>
    cases i with
    | ofNat n =>
      obtain ⟨d, t, hd, ht⟩ := exists_digit_ofNat n
      refine ⟨Decimal.digit d, t, by simp [Decimal.ofInt, ht], ?_, ?_⟩ <;>
        interval_cases d <;> decide
    | negSucc n =>
      exact ⟨.char '-', Decimal.ofNat (n + 1), by simp [Decimal.ofInt],
        by decide, by decide⟩
  | float x => exact absurd h (by simp [Storable])
  | text t => exact ⟨_, _, rfl, by decide, by decide⟩
  | array items => cases items <;> exact ⟨_, _, rfl, by decide, by decide⟩
  | object members => cases members <;> exact ⟨_, _, rfl, by decide, by decide⟩

theorem skipSpace_write {depth : ℕ} {v : Json} (h : Storable depth v) (rest : Text) :
    skipSpace (v.write ++ rest) = v.write ++ rest := by
  obtain ⟨g, t, hw, hg, -⟩ := exists_head_write h
  rw [hw, List.cons_append, skipSpace_cons hg]

theorem value_atom (dialect : Dialect) (fuel depth : ℕ) {t : Text}
    (h : ∀ g ∈ t.head?, g ≠ .char '"' ∧ g ≠ .char '[' ∧ g ≠ .char '\x7b') :
    value dialect (fuel + 1) depth t = atom t := by
  unfold value
  split
  next => exact absurd rfl (h _ rfl).1
  next => exact absurd rfl (h _ rfl).2.1
  next => exact absurd rfl (h _ rfl).2.2
  next => rfl

theorem value_int (dialect : Dialect) (fuel depth : ℕ) {i : ℤ} (hi : Fits i) {rest : Text}
    (hr : Closes rest) :
    value dialect (fuel + 1) depth (Decimal.ofInt i ++ rest) = .ok (.int i, rest) := by
  rw [value_atom, atom_ofInt hi hr]
  intro g hg
  cases i with
  | ofNat n =>
    obtain ⟨d, t, hd, ht⟩ := exists_digit_ofNat n
    rw [Decimal.ofInt, ht] at hg
    cases hg
    interval_cases d <;> decide
  | negSucc n =>
    cases hg
    decide

theorem value_text (fuel depth : ℕ) (dialect : Dialect) (t : Text) (h : t.length < fuel)
    (rest : Text) :
    value dialect (fuel + 1) depth (quoted t ++ rest) = .ok (.text t, rest) := by
  have htext : quoted t ++ rest = .char '"' :: (t.flatMap escaped ++ .char '"' :: rest) := by
    simp [quoted]
  rw [htext, value, string_quoted dialect t h]
  rfl

theorem closes_itemPieces (items : List Json) (rest : Text) :
    Closes ((itemPieces items).flatMap Piece.toText ++ rest) := by
  cases items with
  | nil => exact closes_bracket rest
  | cons item items => exact closes_comma _

theorem closes_memberPieces (members : List (Text × Json)) (rest : Text) :
    Closes ((memberPieces members).flatMap Piece.toText ++ rest) := by
  cases members with
  | nil => exact closes_brace rest
  | cons member members => exact closes_comma _

theorem length_itemPieces_pos (items : List Json) :
    0 < ((itemPieces items).flatMap Piece.toText).length := by
  cases items with
  | nil => decide
  | cons item items => simp [itemPieces, mark]

theorem length_memberPieces_pos (members : List (Text × Json)) :
    0 < ((memberPieces members).flatMap Piece.toText).length := by
  cases members with
  | nil => decide
  | cons member members => obtain ⟨key, v⟩ := member; simp [memberPieces, mark]

/-! ### Values with parts -/

theorem write_array (item : Json) (items : List Json) :
    (array (item :: items)).write
      = .char '[' :: (item.write ++ (itemPieces items).flatMap Piece.toText) := by
  simp [write, pieces, mark]

theorem flatMap_itemPieces (item : Json) (items : List Json) :
    (itemPieces (item :: items)).flatMap Piece.toText
      = .char ',' :: (item.write ++ (itemPieces items).flatMap Piece.toText) := by
  simp [write, itemPieces, mark]

theorem write_object (key : Text) (item : Json) (members : List (Text × Json)) :
    (object ((key, item) :: members)).write
      = .char '\x7b'
        :: (quoted key
          ++ .char ':' :: (item.write ++ (memberPieces members).flatMap Piece.toText)) := by
  simp [write, pieces, mark]

theorem flatMap_memberPieces (key : Text) (item : Json) (members : List (Text × Json)) :
    (memberPieces ((key, item) :: members)).flatMap Piece.toText
      = .char ','
        :: (quoted key
          ++ .char ':' :: (item.write ++ (memberPieces members).flatMap Piece.toText)) := by
  simp [write, memberPieces, mark]

theorem value_array (dialect : Dialect) (fuel depth : ℕ) {t : Text} (ht : skipSpace t = t)
    (hhead : t.head? ≠ some (.char ']')) :
    value dialect (fuel + 1) (depth + 1) (.char '[' :: t) = items dialect fuel depth [] t := by
  rw [value]
  simp only [ht]
  split
  next => exact absurd rfl hhead
  next => rfl

theorem value_empty_array (fuel depth : ℕ) (rest : Text) :
    value .document (fuel + 1) depth ((array []).write ++ rest) = .ok (.array [], rest) := by
  cases depth <;> rfl

theorem value_empty_object (fuel depth : ℕ) (rest : Text) :
    value .document (fuel + 1) depth ((object []).write ++ rest) = .ok (.object [], rest) := by
  cases depth <;> rfl

/-- With this fuel every value is read that is written in as many glyphs. -/
def ReadsValues (fuel : ℕ) : Prop :=
  ∀ {depth : ℕ} {v : Json} {rest : Text}, Storable depth v → v.write.length ≤ fuel →
    Closes rest → value .document fuel depth (v.write ++ rest) = .ok (v, rest)

def ReadsItems (fuel : ℕ) : Prop :=
  ∀ {depth : ℕ} {item : Json} {more : List Json}, StorableItems depth (item :: more) →
    ∀ {done : List Json} {t rest : Text}, t = item.write ++ (itemPieces more).flatMap Piece.toText →
    t.length ≤ fuel →
    items .document fuel depth done (t ++ rest) = .ok (.array (done.reverse ++ item :: more), rest)

def ReadsMembers (fuel : ℕ) : Prop :=
  ∀ {depth : ℕ} {key : Text} {item : Json} {more : List (Text × Json)},
    StorableMembers depth ((key, item) :: more) →
    ∀ {done : List (Text × Json)} {t rest : Text},
    t = quoted key ++ .char ':' :: (item.write ++ (memberPieces more).flatMap Piece.toText) →
    t.length ≤ fuel →
    members .document fuel depth done (t ++ rest)
      = .ok (.object (done.reverse ++ (key, item) :: more), rest)

theorem readsValues_succ {fuel : ℕ} (hitems : ReadsItems fuel) (hmembers : ReadsMembers fuel) :
    ReadsValues (fuel + 1) := by
  intro depth v rest h hf hr
  match v with
  | null => rfl
  | bool true => rfl
  | bool false => rfl
  | int i =>
    rw [write_int]
    exact value_int _ _ _ h hr
  | float x => exact absurd h (by simp [Storable])
  | text t =>
    have hle := length_le_escaped t
    rw [write_text] at hf ⊢
    refine value_text fuel depth _ t ?_ rest
    simp only [quoted, List.length_append, List.length_singleton] at hf
    omega
  | array [] => exact value_empty_array fuel depth rest
  | array (item :: more) =>
    obtain hnil | ⟨hd, hs⟩ : _ ∨ _ := h
    · cases hnil
    obtain ⟨g, t, hhead, -, hg⟩ := exists_head_write hs.1
    rw [write_array, List.length_cons] at hf
    rw [write_array, List.cons_append, ← Nat.sub_add_cancel hd, value_array]
    · exact hitems hs rfl (by omega)
    · rw [List.append_assoc]
      exact skipSpace_write hs.1 _
    · simpa [hhead] using hg
  | object [] => exact value_empty_object fuel depth rest
  | object ((key, item) :: more) =>
    obtain hnil | ⟨hd, hs⟩ : _ ∨ _ := h
    · cases hnil
    rw [write_object, List.length_cons] at hf
    rw [write_object, ← Nat.sub_add_cancel hd]
    exact hmembers hs rfl (by omega)

theorem readsItems_succ {fuel : ℕ} (hvalues : ReadsValues fuel) (hitems : ReadsItems fuel) :
    ReadsItems (fuel + 1) := by
  intro depth item more h done t rest ht hf
  have hpos := length_itemPieces_pos more
  rw [ht, List.length_append] at hf
  have hvalue := hvalues h.1 (by omega) (closes_itemPieces more rest)
  rw [ht, List.append_assoc, items, hvalue]
  cases more with
  | nil =>
    have hmark : skipSpace ((itemPieces []).flatMap Piece.toText ++ rest) = .char ']' :: rest := rfl
    simp [hmark]
  | cons next more =>
    rw [flatMap_itemPieces] at hf ⊢
    simp only [List.cons_append, skipSpace_cons (g := .char ',') (by decide)]
    rw [List.append_assoc, skipSpace_write h.2.1, ← List.append_assoc,
      hitems h.2 rfl (by simp only [List.length_cons] at hf; omega)]
    simp

theorem readsMembers_succ {fuel : ℕ} (hvalues : ReadsValues fuel) (hmembers : ReadsMembers fuel) :
    ReadsMembers (fuel + 1) := by
  intro depth key item more h done t rest ht hf
  have hpos := length_memberPieces_pos more
  have hle := length_le_escaped key
  have hlen : key.length < fuel ∧ item.write.length ≤ fuel
      ∧ ((memberPieces more).flatMap Piece.toText).length ≤ fuel := by
    rw [ht] at hf
    simp only [quoted, List.length_append, List.length_cons] at hf
    omega
  have htext : t ++ rest = .char '"' :: (key.flatMap escaped ++ .char '"' :: .char ':' ::
      (item.write ++ ((memberPieces more).flatMap Piece.toText ++ rest))) := by
    simp [ht, quoted]
  have hvalue := hvalues h.1 hlen.2.1 (closes_memberPieces more rest)
  rw [htext, members, string_quoted _ key hlen.1]
  simp only [skipSpace_cons (g := .char ':') (by decide), skipSpace_write h.1, hvalue]
  cases more with
  | nil =>
    have hmark :
        skipSpace ((memberPieces []).flatMap Piece.toText ++ rest) = .char '\x7d' :: rest := rfl
    simp [hmark, Dialect.object, Dialect.document]
  | cons next more =>
    obtain ⟨key', item'⟩ := next
    rw [flatMap_memberPieces] at hlen ⊢
    have hquote : ∀ u, skipSpace (quoted key' ++ u) = quoted key' ++ u := fun u => by
      rw [quoted, List.append_assoc, List.append_assoc]
      exact skipSpace_cons (by decide) _
    simp only [List.cons_append, skipSpace_cons (g := .char ',') (by decide)]
    rw [List.append_assoc, hquote, ← List.append_assoc]
    rw [hmembers h.2 rfl (by simp only [List.length_cons] at hlen; omega)]
    simp

theorem reads (fuel : ℕ) : ReadsValues fuel ∧ ReadsItems fuel ∧ ReadsMembers fuel := by
  induction fuel with
  | zero =>
    refine ⟨fun h hf _ => ?_, fun h _ _ _ ht hf => ?_, fun h _ _ _ ht hf => ?_⟩
    · obtain ⟨g, t, hw, -⟩ := exists_head_write h
      rw [hw, List.length_cons] at hf
      omega
    · obtain ⟨g, t, hw, -⟩ := exists_head_write h.1
      rw [ht, hw, List.cons_append, List.length_cons] at hf
      omega
    · rw [ht, List.length_append, List.length_cons] at hf
      omega
  | succ fuel ih =>
    obtain ⟨hvalues, hitems, hmembers⟩ := ih
    exact ⟨readsValues_succ hitems hmembers, readsItems_succ hvalues hitems,
      readsMembers_succ hvalues hmembers⟩

/-- A stored document is read back as it was written. -/
theorem read_write {v : Json} (h : Storable Dialect.document.depth v) :
    read .document v.write = .ok v := by
  have hvalue := (reads (2 * v.write.length + 2)).1 h (by omega) closes_nil
  have hspace := skipSpace_write h []
  rw [List.append_nil] at hvalue hspace
  rw [read, hspace, hvalue]
  rfl

end AuthorWatch.Json
