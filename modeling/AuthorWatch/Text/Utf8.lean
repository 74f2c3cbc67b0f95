import AuthorWatch.Text.Basic

/-! The UTF-8 form of a text. Reading is strict: overlong forms, encoded
surrogates, and code points above `0x10FFFF` are refused. -/

namespace AuthorWatch.Utf8

/-- The one to four bytes of a code point. -/
def encodeCodePoint (n : Nat) : List UInt8 :=
  if n < 0x80 then [n.toUInt8]
  else if n < 0x800 then [(0xC0 + n / 0x40).toUInt8, (0x80 + n % 0x40).toUInt8]
  else if n < 0x10000 then
    [(0xE0 + n / 0x1000).toUInt8, (0x80 + n / 0x40 % 0x40).toUInt8, (0x80 + n % 0x40).toUInt8]
  else
    [(0xF0 + n / 0x40000).toUInt8, (0x80 + n / 0x1000 % 0x40).toUInt8,
      (0x80 + n / 0x40 % 0x40).toUInt8, (0x80 + n % 0x40).toUInt8]

/-- The bytes of a text; a lone surrogate takes the three bytes of its number,
which `decode?` refuses, so callers test `Text.encodable` first. -/
def encode (t : Text) : List UInt8 := t.flatMap fun g => encodeCodePoint g.codePoint

/-- The six payload bits of a continuation byte. -/
def payload? (b : UInt8) : Option Nat :=
  if 0x80 ≤ b ∧ b < 0xC0 then some (b.toNat - 0x80) else none

/-- The number formed by a lead byte's bits and the continuation bytes after it. -/
def extend? (bits : Nat) (tail : List UInt8) : Option Nat :=
  tail.foldlM (fun n b => (payload? b).map (n * 0x40 + ·)) bits

/-- How many continuation bytes follow a lead byte, its own bits, and the least
number that needs this length. -/
def lead? (b : UInt8) : Option (Nat × Nat × Nat) :=
  if b < 0x80 then some (0, b.toNat, 0)
  else if 0xC0 ≤ b ∧ b < 0xE0 then some (1, b.toNat - 0xC0, 0x80)
  else if 0xE0 ≤ b ∧ b < 0xF0 then some (2, b.toNat - 0xE0, 0x800)
  else if 0xF0 ≤ b ∧ b < 0xF8 then some (3, b.toNat - 0xF0, 0x10000)
  else none

/-- The first character of a byte sequence and what follows it. -/
def next? : List UInt8 → Option (Glyph × List UInt8)
  | [] => none
  | b :: rest =>
    match lead? b with
    | none => none
    | some (count, bits, least) =>
      if (rest.take count).length < count then none
      else match extend? bits (rest.take count) with
        | none => none
        | some n =>
          if n < least then none
          else match Glyph.ofNat? n with
            | some (.char c) => some (.char c, rest.drop count)
            | _ => none

theorem length_lt_of_next? {bytes rest : List UInt8} {g : Glyph}
    (h : next? bytes = some (g, rest)) : rest.length < bytes.length := by
  unfold next? at h
  split at h
  · simp at h
  · split at h
    · simp at h
    · split at h
      · simp at h
      · split at h
        · simp at h
        · split at h
          · simp at h
          · split at h
            · simp only [Option.some.injEq, Prod.mk.injEq] at h
              obtain ⟨-, rfl⟩ := h
              simp only [List.length_drop, List.length_cons]
              omega
            · simp at h

/-- The text of a byte sequence, after the glyphs already read. -/
def decodeOnto (done : Text) (bytes : List UInt8) : Option Text :=
  match bytes with
  | [] => some done.reverse
  | b :: rest =>
    match _ : next? (b :: rest) with
    | none => none
    | some (g, rest') => decodeOnto (g :: done) rest'
termination_by bytes.length
decreasing_by exact length_lt_of_next? ‹_›

def decode? (bytes : List UInt8) : Option Text := decodeOnto [] bytes

end AuthorWatch.Utf8
