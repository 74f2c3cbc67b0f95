import AuthorWatch.Text.Utf8
import Mathlib.Tactic.Common

/-! A text without lone surrogates is read back from its UTF-8 form. -/

namespace AuthorWatch.Utf8

theorem toNat_toUInt8 {n : ℕ} (h : n < 256) : n.toUInt8.toNat = n := by
  simp [Nat.toUInt8, UInt8.toNat_ofNat', Nat.mod_eq_of_lt h]

theorem payload?_eq (b : UInt8) :
    payload? b = if 0x80 ≤ b.toNat ∧ b.toNat < 0xC0 then some (b.toNat - 0x80) else none := by
  simp only [payload?, UInt8.lt_iff_toNat_lt, UInt8.le_iff_toNat_le]
  rfl

theorem payload?_tail {m : ℕ} (h : m < 0x40) : payload? (0x80 + m).toUInt8 = some m := by
  rw [payload?_eq, toNat_toUInt8 (by omega), if_pos (by omega), Nat.add_sub_cancel_left]

theorem extend?_cons {bits m : ℕ} {b : UInt8} (h : payload? b = some m) (tail : List UInt8) :
    extend? bits (b :: tail) = extend? (bits * 0x40 + m) tail := by
  rw [extend?, List.foldlM_cons, h]
  rfl

/-! ### Lead bytes -/

theorem lead?_eq (b : UInt8) : lead? b
    = if b.toNat < 0x80 then some (0, b.toNat, 0)
      else if 0xC0 ≤ b.toNat ∧ b.toNat < 0xE0 then some (1, b.toNat - 0xC0, 0x80)
      else if 0xE0 ≤ b.toNat ∧ b.toNat < 0xF0 then some (2, b.toNat - 0xE0, 0x800)
      else if 0xF0 ≤ b.toNat ∧ b.toNat < 0xF8 then some (3, b.toNat - 0xF0, 0x10000)
      else none := by
  simp only [lead?, UInt8.lt_iff_toNat_lt, UInt8.le_iff_toNat_le]
  rfl

theorem lead?_one {n : ℕ} (h : n < 0x80) : lead? n.toUInt8 = some (0, n, 0) := by
  rw [lead?_eq, toNat_toUInt8 (by omega), if_pos h]

theorem lead?_two {m : ℕ} (h : m < 0x20) : lead? (0xC0 + m).toUInt8 = some (1, m, 0x80) := by
  rw [lead?_eq, toNat_toUInt8 (by omega), if_neg (by omega), if_pos (by omega),
    Nat.add_sub_cancel_left]

theorem lead?_three {m : ℕ} (h : m < 0x10) : lead? (0xE0 + m).toUInt8 = some (2, m, 0x800) := by
  rw [lead?_eq, toNat_toUInt8 (by omega), if_neg (by omega), if_neg (by omega), if_pos (by omega),
    Nat.add_sub_cancel_left]

theorem lead?_four {m : ℕ} (h : m < 0x08) : lead? (0xF0 + m).toUInt8 = some (3, m, 0x10000) := by
  rw [lead?_eq, toNat_toUInt8 (by omega), if_neg (by omega), if_neg (by omega), if_neg (by omega),
    if_pos (by omega), Nat.add_sub_cancel_left]

/-! ### Characters -/

theorem ofNat?_char (c : Char) : Glyph.ofNat? c.toNat = some (.char c) := by
  have hvalid : c.toNat.isValidChar := c.valid
  have hsurrogate : ¬ (0xD800 ≤ c.toNat ∧ c.toNat < 0xE000) := by
    unfold Nat.isValidChar at hvalid
    omega
  rw [Glyph.ofNat?, dif_neg hsurrogate, if_pos hvalid, Char.ofNat_toNat]

theorem toNat_lt (c : Char) : c.toNat < 0x110000 := by
  have hvalid : c.toNat.isValidChar := c.valid
  unfold Nat.isValidChar at hvalid
  omega

/-- A lead byte with its continuation bytes is read as the character they form. -/
theorem next?_of_extend? {b : UInt8} (tail : List UInt8) {rest : List UInt8} {bits least n : ℕ}
    {c : Char} (hl : lead? b = some (tail.length, bits, least)) (he : extend? bits tail = some n)
    (hn : least ≤ n) (hc : Glyph.ofNat? n = some (.char c)) :
    next? (b :: (tail ++ rest)) = some (.char c, rest) := by
  simp only [next?, hl, List.take_left, Nat.lt_irrefl, if_false, he, Nat.not_lt.mpr hn, hc,
    List.drop_left]

theorem next?_encode (c : Char) (rest : List UInt8) :
    next? (encodeCodePoint c.toNat ++ rest) = some (.char c, rest) := by
  have hc := toNat_lt c
  have hof := ofNat?_char c
  set n := c.toNat
  unfold encodeCodePoint
  split_ifs with h1 h2 h3
  · exact next?_of_extend? [] (lead?_one h1) rfl (by omega) hof
  · refine next?_of_extend? [_] (lead?_two (by omega)) ?_ (by omega) hof
    rw [extend?_cons (payload?_tail (by omega))]
    exact congrArg some (by omega)
  · refine next?_of_extend? [_, _] (lead?_three (by omega)) ?_ (by omega) hof
    rw [extend?_cons (payload?_tail (by omega)), extend?_cons (payload?_tail (by omega))]
    exact congrArg some (by omega)
  · refine next?_of_extend? [_, _, _] (lead?_four (by omega)) ?_ (by omega) hof
    rw [extend?_cons (payload?_tail (by omega)), extend?_cons (payload?_tail (by omega)),
      extend?_cons (payload?_tail (by omega))]
    exact congrArg some (by omega)

theorem encodeCodePoint_ne_nil (n : ℕ) : encodeCodePoint n ≠ [] := by
  unfold encodeCodePoint
  split_ifs <;> simp

theorem decodeOnto_of_next? {done : Text} {bytes rest : List UInt8} {g : Glyph}
    (h : next? bytes = some (g, rest)) : decodeOnto done bytes = decodeOnto (g :: done) rest := by
  cases bytes with
  | nil => cases h
  | cons b bs =>
    rw [decodeOnto]
    split
    next hn => rw [h] at hn; cases hn
    next g' rest' hn => rw [h] at hn; cases hn; rfl

theorem decodeOnto_encode (done t : Text) (ht : t.encodable = true) :
    decodeOnto done (encode t) = some (done.reverse ++ t) := by
  induction t generalizing done with
  | nil => simp [encode, decodeOnto]
  | cons g t ih =>
    simp only [Text.encodable, List.all_cons, Bool.and_eq_true] at ht
    cases g with
    | surrogate u => simp [Glyph.isSurrogate] at ht
    | char c =>
      have hnext : next? (encode (.char c :: t)) = some (.char c, encode t) := next?_encode c _
      rw [decodeOnto_of_next? hnext, ih _ ht.2]
      simp

/-- Reading the bytes of a text gives the text. -/
theorem decode?_encode {t : Text} (ht : t.encodable = true) : decode? (encode t) = some t :=
  decodeOnto_encode [] t ht

theorem encode_append (s t : Text) : encode (s ++ t) = encode s ++ encode t :=
  List.flatMap_append

theorem encode_ne_nil {t : Text} (h : t ≠ []) : encode t ≠ [] := by
  cases t with
  | nil => exact absurd rfl h
  | cons g t => simp [encode, encodeCodePoint_ne_nil]

end AuthorWatch.Utf8
