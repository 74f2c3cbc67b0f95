import AuthorWatch.Proofs.Json.Reading

/-! What a written document looks like. Every glyph of it is printable ASCII or comes from one
of its texts, and none is a control character: so a document has no line ends, and it can be
written if its texts have encodings. -/

namespace AuthorWatch

/-- A text without carriage returns has plain line ends. -/
theorem Text.withPlainLineEnds_of_not_mem {t : Text} (h : .char '\r' ∉ t) :
    t.withPlainLineEnds = t := by
  fun_induction withPlainLineEnds t with
  | case1 => rfl
  | case2 rest _ => exact absurd (List.mem_cons_self ..) h
  | case3 g rest _ ih =>
    obtain ⟨hg, hrest⟩ := not_or.mp (List.mem_cons.not.mp h)
    rw [ih hrest, if_neg (Ne.symm hg)]

theorem Text.encodable_append (s t : Text) :
    (s ++ t : Text).encodable = (s.encodable && t.encodable) := List.all_append

namespace Json

mutual

/-- All texts of a value, its keys among them. -/
def texts : Json → List Text
  | text t => [t]
  | array items => itemTexts items
  | object members => memberTexts members
  | _ => []

def itemTexts : List Json → List Text
  | [] => []
  | item :: rest => texts item ++ itemTexts rest

def memberTexts : List (Text × Json) → List Text
  | [] => []
  | (key, item) :: rest => key :: (texts item ++ memberTexts rest)

end

theorem forall_itemTexts_iff {p : Text → Prop} {items : List Json} :
    (∀ t ∈ itemTexts items, p t) ↔ ∀ v ∈ items, ∀ t ∈ v.texts, p t := by
  induction items with
  | nil => simp [itemTexts]
  | cons v items ih => rw [itemTexts, List.forall_mem_append, ih, List.forall_mem_cons]

theorem forall_memberTexts_iff {p : Text → Prop} {members : List (Text × Json)} :
    (∀ t ∈ memberTexts members, p t)
      ↔ ∀ member ∈ members, p member.1 ∧ ∀ t ∈ member.2.texts, p t := by
  induction members with
  | nil => simp [memberTexts]
  | cons member members ih =>
    obtain ⟨key, v⟩ := member
    rw [memberTexts, List.forall_mem_cons, List.forall_mem_append, ih, List.forall_mem_cons,
      and_assoc]

/-- A glyph that a value with these texts may be written with. -/
def Plain (ts : List Text) (g : Glyph) : Prop :=
  0x20 ≤ g.codePoint ∧ (g.codePoint < 0x7f ∨ ∃ t ∈ ts, g ∈ t)

theorem Plain.mono {ts us : List Text} {g : Glyph} (h : Plain ts g) (hsub : ts ⊆ us) :
    Plain us g := by
  refine ⟨h.1, h.2.imp_right ?_⟩
  rintro ⟨t, ht, hg⟩
  exact ⟨t, hsub ht, hg⟩

/-- Printable ASCII. -/
def Ascii (t : Text) : Prop := ∀ g ∈ t, 0x20 ≤ g.codePoint ∧ g.codePoint < 0x7f

instance (t : Text) : Decidable (Ascii t) :=
  inferInstanceAs (Decidable (∀ g ∈ t, 0x20 ≤ g.codePoint ∧ g.codePoint < 0x7f))

theorem Ascii.plain {t : Text} (h : Ascii t) (ts : List Text) : ∀ g ∈ t, Plain ts g :=
  fun g hg => ⟨(h g hg).1, .inl (h g hg).2⟩

theorem Ascii.encodable {t : Text} (h : Ascii t) : t.encodable = true := by
  rw [Text.encodable, List.all_eq_true]
  intro g hg
  cases g with
  | char c => rfl
  | surrogate u =>
    have hlt := (h _ hg).2
    simp only [Glyph.codePoint] at hlt
    omega

/-! ### Values without parts -/

theorem ascii_ofNat (n : ℕ) : Ascii (Decimal.ofNat n) := by
  intro g hg
  obtain ⟨d, hd, rfl⟩ := List.mem_map.mp hg
  have hlt := Decimal.digits_lt n d hd
  interval_cases d <;> decide

theorem ascii_ofInt (i : ℤ) : Ascii (Decimal.ofInt i) := by
  cases i with
  | ofNat n => exact ascii_ofNat n
  | negSucc n =>
    intro g hg
    rcases List.mem_cons.mp hg with rfl | hg
    · decide
    · exact ascii_ofNat (n + 1) g hg

theorem ascii_control {n : ℕ} (h : n < 0x20) : Ascii ("\\u" ++ Text.hexDigits 4 n : Text) := by
  interval_cases n <;> decide

theorem plain_escaped {t : Text} {g : Glyph} (hg : g ∈ t) : ∀ h ∈ escaped g, Plain [t] h := by
  unfold escaped
  split
  case h_8 =>
    dsimp only
    split_ifs with hcontrol
    · exact (ascii_control hcontrol).plain [t]
    · intro h hh
      cases List.mem_singleton.mp hh
      exact ⟨Nat.not_lt.mp hcontrol, .inr ⟨t, List.mem_singleton_self t, hg⟩⟩
  all_goals exact Ascii.plain (by decide) [t]

theorem plain_quoted (t : Text) : ∀ g ∈ quoted t, Plain [t] g := by
  have hquote : ∀ g ∈ ([.char '"'] : Text), Plain [t] g := Ascii.plain (by decide) [t]
  intro g hg
  simp only [quoted, List.mem_append] at hg
  rcases hg with (hg | hg) | hg
  · exact hquote g hg
  · obtain ⟨h, hh, hg⟩ := List.mem_flatMap.mp hg
    exact plain_escaped hh g hg
  · exact hquote g hg

/-! ### Pieces -/

namespace Piece

/-- A piece of a document with these texts. -/
def Fine (ts : List Text) : Piece → Prop
  | text t => ∀ g ∈ t, Plain ts g
  | integer n => Fits n

variable {ts us : List Text} {p : Piece}

theorem Fine.mono (h : p.Fine ts) (hsub : ts ⊆ us) : p.Fine us := by
  cases p with
  | text t => exact fun g hg => (h g hg).mono hsub
  | integer n => exact h

theorem Fine.plain (h : p.Fine ts) : ∀ g ∈ p.toText, Plain ts g := by
  cases p with
  | text t => exact h
  | integer n => exact (ascii_ofInt n).plain ts

theorem fine_ascii {t : Text} (h : Ascii t) (ts : List Text) : (text t).Fine ts := h.plain ts

theorem fine_key (key : Text) (ts : List Text) : (text (quoted key)).Fine (key :: ts) :=
  fun g hg => (plain_quoted key g hg).mono fun _ ht =>
    List.mem_cons.mpr (.inl (List.mem_singleton.mp ht))

/-- It is written if the texts have encodings. -/
theorem Fine.isWritable (h : p.Fine ts) (ht : ∀ t ∈ ts, t.encodable = true) :
    p.isWritable = true := by
  cases p with
  | integer n => exact isShort_iff.mpr h
  | text t =>
    show t.encodable = true
    rw [Text.encodable, List.all_eq_true]
    intro g hg
    obtain ⟨hlow, hhigh | ⟨u, hu, hgu⟩⟩ := h g hg
    · have hascii : Ascii [g] := by simpa [Ascii] using ⟨hlow, hhigh⟩
      simpa [Text.encodable] using hascii.encodable
    · exact List.all_eq_true.mp (ht u hu) g hgu

theorem encodable_of_isWritable (h : p.isWritable = true) : p.toText.encodable = true := by
  cases p with
  | text t => exact h
  | integer n => exact (ascii_ofInt n).encodable

end Piece

theorem forall_fine_append {ps qs : List Piece} {ts us : List Text} (hp : ∀ p ∈ ps, p.Fine ts)
    (hq : ∀ p ∈ qs, p.Fine us) : ∀ p ∈ ps ++ qs, p.Fine (ts ++ us) :=
  List.forall_mem_append.mpr
    ⟨fun p h => (hp p h).mono (List.subset_append_left ts us),
      fun p h => (hq p h).mono (List.subset_append_right ts us)⟩

/-- A key, a colon and what follows them. -/
theorem forall_fine_key (key : Text) {ps : List Piece} {ts : List Text} (h : ∀ p ∈ ps, p.Fine ts) :
    ∀ p ∈ .text (quoted key) :: mark ':' :: ps, p.Fine (key :: ts) :=
  List.forall_mem_cons.mpr ⟨Piece.fine_key key ts, List.forall_mem_cons.mpr
    ⟨Piece.fine_ascii (by decide) _, fun p hp => (h p hp).mono (List.subset_cons_self key ts)⟩⟩

theorem forall_fine_mark {c : Char} (hc : Ascii [.char c]) {ps : List Piece} {ts : List Text}
    (h : ∀ p ∈ ps, p.Fine ts) : ∀ p ∈ mark c :: ps, p.Fine ts :=
  List.forall_mem_cons.mpr ⟨Piece.fine_ascii hc ts, h⟩

theorem forall_fine_ascii {t : Text} (h : Ascii t) (ts : List Text) :
    ∀ p ∈ [Piece.text t], p.Fine ts :=
  List.forall_mem_singleton.mpr (Piece.fine_ascii h ts)

mutual

/-- The pieces of a value. -/
theorem fine_pieces {depth : ℕ} : (v : Json) → Storable depth v → ∀ p ∈ v.pieces, p.Fine v.texts
  | null, _ => forall_fine_ascii (by decide) _
  | bool true, _ => forall_fine_ascii (by decide) _
  | bool false, _ => forall_fine_ascii (by decide) _
  | int i, h => List.forall_mem_singleton.mpr h
  | float x, h => False.elim (by simp only [Storable] at h)
  | text t, _ => List.forall_mem_singleton.mpr (plain_quoted t)
  | array [], _ => forall_fine_ascii (by decide) _
  | array (item :: rest), h => by
    obtain hnil | ⟨-, hitem, hrest⟩ := h
    · cases hnil
    · rw [pieces, texts, itemTexts, List.cons_append]
      exact forall_fine_mark (by decide)
        (forall_fine_append (fine_pieces item hitem) (fine_itemPieces rest hrest))
  | object [], _ => forall_fine_ascii (by decide) _
  | object ((key, item) :: rest), h => by
    obtain hnil | ⟨-, hitem, hrest⟩ := h
    · cases hnil
    · rw [pieces, texts, memberTexts]
      exact forall_fine_mark (by decide) (forall_fine_key key
        (forall_fine_append (fine_pieces item hitem) (fine_memberPieces rest hrest)))

theorem fine_itemPieces {depth : ℕ} : (items : List Json) → StorableItems depth items →
    ∀ p ∈ itemPieces items, p.Fine (itemTexts items)
  | [], _ => forall_fine_ascii (by decide) _
  | item :: rest, h => by
    rw [itemPieces, itemTexts, List.cons_append]
    exact forall_fine_mark (by decide)
      (forall_fine_append (fine_pieces item h.1) (fine_itemPieces rest h.2))

theorem fine_memberPieces {depth : ℕ} : (members : List (Text × Json)) →
    StorableMembers depth members → ∀ p ∈ memberPieces members, p.Fine (memberTexts members)
  | [], _ => forall_fine_ascii (by decide) _
  | (key, item) :: rest, h => by
    rw [memberPieces, memberTexts]
    exact forall_fine_mark (by decide) (forall_fine_key key
      (forall_fine_append (fine_pieces item h.1) (fine_memberPieces rest h.2)))

end

/-! ### Whole documents -/

/-- What a value is written with. -/
theorem plain_write {depth : ℕ} {v : Json} (h : Storable depth v) :
    ∀ g ∈ v.write, Plain v.texts g := by
  intro g hg
  obtain ⟨p, hp, hg⟩ := List.mem_flatMap.mp hg
  exact (fine_pieces v h p hp).plain g hg

/-- A document has no line ends, so reading it as text lines leaves it as it is. -/
theorem withPlainLineEnds_write {depth : ℕ} {v : Json} (h : Storable depth v) :
    v.write.withPlainLineEnds = v.write := by
  refine Text.withPlainLineEnds_of_not_mem fun hr => ?_
  have hplain := (plain_write h _ hr).1
  revert hplain
  decide

/-- What a document may hold can be written if all its texts have encodings. -/
theorem isWritable_of_storable {depth : ℕ} {v : Json} (h : Storable depth v)
    (ht : ∀ t ∈ v.texts, t.encodable = true) : v.isWritable = true :=
  List.all_eq_true.mpr fun p hp => (fine_pieces v h p hp).isWritable ht

/-- What can be written has an encoding. -/
theorem encodable_write {v : Json} (h : v.isWritable = true) : v.write.encodable = true := by
  rw [write, Text.encodable, List.all_flatMap]
  exact List.all_eq_true.mpr fun p hp =>
    Piece.encodable_of_isWritable (List.all_eq_true.mp h p hp)

end Json

end AuthorWatch
