import AuthorWatch.Proofs.Json.Accepted
import AuthorWatch.Proofs.Json.Writing
import AuthorWatch.Proofs.OrderedMap
import AuthorWatch.Proofs.Text.Utf8

/-! Documents bring no lone surrogates. Bytes that are UTF-8 have none, line ends bring none, and
an escape in a document that is half a pair is refused. -/

namespace AuthorWatch

/-! ### Files -/

namespace Utf8

theorem isSurrogate_of_next? {bytes rest : List UInt8} {g : Glyph}
    (h : next? bytes = some (g, rest)) : g.isSurrogate = false := by
  unfold next? at h
  split at h
  · cases h
  · split at h
    · cases h
    · split at h
      · cases h
      · split at h
        · cases h
        · split at h
          · cases h
          · split at h
            · cases h
              rfl
            · cases h

theorem encodable_of_decodeOnto {done t : Text} {bytes : List UInt8} (hd : done.encodable = true)
    (h : decodeOnto done bytes = some t) : t.encodable = true := by
  fun_induction decodeOnto done bytes with
  | case1 done =>
    cases h
    rwa [Text.encodable, List.all_reverse]
  | case2 => cases h
  | case3 done b rest g left hnext ih =>
    refine ih ?_ h
    rw [Text.encodable, List.all_cons, isSurrogate_of_next? hnext]
    exact hd

/-- What bytes stand for has an encoding. -/
theorem encodable_of_decode? {t : Text} {bytes : List UInt8} (h : decode? bytes = some t) :
    t.encodable = true := encodable_of_decodeOnto rfl h

end Utf8

namespace Text

theorem encodable_of_suffix {t rest : Text} (hs : rest <:+ t) (h : t.encodable = true) :
    rest.encodable = true := by
  rw [encodable, List.all_eq_true] at h ⊢
  exact fun g hg => h g (hs.subset hg)

theorem encodable_withPlainLineEnds {t : Text} (h : t.encodable = true) :
    t.withPlainLineEnds.encodable = true := by
  fun_induction withPlainLineEnds t with
  | case1 => rfl
  | case2 rest ih => exact ih (encodable_of_suffix (List.suffix_append [_, _] rest) h)
  | case3 g rest _ ih =>
    simp only [encodable, List.all_cons, Bool.and_eq_true] at h ih ⊢
    refine ⟨?_, ih h.2⟩
    split
    · rfl
    · exact h.1

end Text

/-! ### Strings -/

theorem Glyph.isSurrogate_of_ofNat? {n : ℕ} {g : Glyph} (h : ofNat? n = some g)
    (hn : 0xE000 ≤ n) : g.isSurrogate = false := by
  rw [ofNat?, dif_neg (by omega)] at h
  split at h
  · cases h
    rfl
  · cases h

namespace Json

variable {dialect : Dialect} {fuel : ℕ} {t rest : Text} {g : Glyph}

theorem isSurrogate_of_pair? {high low : ℕ} (h : pair? high low = some g) :
    g.isSurrogate = false := by
  unfold pair? at h
  split at h
  · exact Glyph.isSurrogate_of_ofNat? h (by omega)
  · cases h

theorem isSurrogate_of_partner? {high : ℕ} (h : partner? high t = some (g, rest)) :
    g.isSurrogate = false := by
  unfold partner? at h
  split at h
  · simp only [Option.bind_eq_bind, Option.bind_eq_some_iff, Option.some.injEq, Prod.mk.injEq] at h
    obtain ⟨_, -, _, hpair, rfl, -⟩ := h
    exact isSurrogate_of_pair? hpair
  · cases h

theorem isSurrogate_of_escape? (hd : dialect.loneSurrogates = false)
    (h : escape? dialect t = some (g, rest)) : g.isSurrogate = false := by
  unfold escape? at h
  split at h
  · obtain ⟨_, _, -, hpartner | ⟨-, halone⟩⟩ := cases_of_unicodeEscape? h
    · exact isSurrogate_of_partner? hpartner
    · rw [hd] at halone
      exact Bool.eq_false_iff.mpr fun hg => Bool.noConfusion (halone hg)
  all_goals cases h
  all_goals rfl

theorem encodable_of_string {done s : Text} (hd : dialect.loneSurrogates = false)
    (hdone : done.encodable = true) (ht : t.encodable = true)
    (h : string dialect fuel done t = .ok (s, rest)) : s.encodable = true := by
  have hmore : ∀ {g : Glyph} {u : Text}, g.isSurrogate = false → u.encodable = true →
      Text.encodable (g :: u) = true := by
    intro g u hg hu
    rw [Text.encodable, List.all_cons, hg]
    exact hu
  induction fuel generalizing done t with
  | zero => cases h
  | succ fuel ih =>
    unfold string at h
    split at h
    · cases h
    · cases h
    next first after heq =>
      cases heq
      have hafter := Text.encodable_of_suffix (List.suffix_cons first after) ht
      split at h
      · cases h
        rwa [Text.encodable, List.all_reverse]
      · split at h
        · split at h
          next hescape =>
            exact ih (hmore (isSurrogate_of_escape? hd hescape) hdone)
              (Text.encodable_of_suffix (suffix_escape? hescape) hafter) h
          next => cases h
        · split at h
          · cases h
          · have hfirst : first.isSurrogate = false := by
              rw [Text.encodable, List.all_cons, Bool.and_eq_true, Bool.not_eq_true'] at ht
              exact ht.1
            exact ih (hmore hfirst hdone) hafter h

/-! ### Values -/

theorem texts_of_atom {v : Json} (h : atom t = .ok (v, rest)) : v.texts = [] := by
  obtain ⟨⟨word, hword⟩, -⟩ | ⟨negative, u, hnumber, -⟩ := cases_of_atom h
  · simp only [words, List.mem_cons, Prod.mk.injEq, List.not_mem_nil, or_false] at hword
    rcases hword with ⟨-, rfl⟩ | ⟨-, rfl⟩ | ⟨-, rfl⟩ | ⟨-, rfl⟩ | ⟨-, rfl⟩ | ⟨-, rfl⟩ <;> rfl
  · obtain ⟨n, rfl⟩ | ⟨x, rfl⟩ := cases_of_number hnumber <;> rfl

/-- All texts of a value have an encoding. -/
def Encodable (v : Json) : Prop := ∀ t ∈ v.texts, t.encodable = true

theorem inherited_encodable (hd : dialect.loneSurrogates = false) :
    Inherited dialect (fun t => t.encodable = true) (fun t => t.encodable = true) Encodable where
  left := Text.encodable_of_suffix
  fine ht h := encodable_of_string hd rfl ht h
  text h := List.forall_mem_singleton.mpr h
  atom _ h := by
    rw [Encodable, texts_of_atom h]
    exact List.forall_mem_nil _
  array h := forall_itemTexts_iff.mpr h
  object {found} h := by
    refine forall_memberTexts_iff.mpr fun member hmember => h member ?_
    split at hmember
    · exact hmember
    · exact (Assoc.mem_of_mem_insertAll hmember).resolve_left List.not_mem_nil

/-- What a document says has an encoding. -/
theorem encodable_of_read {v : Json} (ht : t.encodable = true)
    (h : read .document t = .ok v) : v.Encodable := (inherited_encodable rfl).of_read ht h

end Json

end AuthorWatch
