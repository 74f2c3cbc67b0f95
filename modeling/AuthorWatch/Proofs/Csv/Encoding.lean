import AuthorWatch.Output
import AuthorWatch.Proofs.Json.Writing

/-! Which rows can be written. Quoting a field adds ASCII only, so a record has an encoding
exactly if all its fields do, and for a row these are its two names and its hash. Its integers
have to be short. -/

namespace AuthorWatch

namespace Text

theorem encodable_join {sep : Text} (hs : sep.encodable = true) (parts : List Text) :
    (join sep parts).encodable = parts.all encodable := by
  induction parts with
  | nil => rfl
  | cons part rest ih =>
    cases rest with
    | nil => simp [join]
    | cons next rest =>
      rw [join, List.intercalate_cons_cons, encodable_append, encodable_append, ← join, ih, hs,
        Bool.and_true]
      rfl

end Text

namespace Csv

theorem encodable_quoted (t : Text) : (quoted t).encodable = t.encodable := by
  have hdoubled : Text.encodable (t.flatMap doubled) = t.encodable := by
    induction t with
    | nil => rfl
    | cons g t ih =>
      have hg : (doubled g).encodable = !g.isSurrogate := by
        unfold doubled
        split <;> simp [Text.encodable]
      rw [List.flatMap_cons, Text.encodable_append, ih, hg]
      rfl
  have hquote : Text.encodable [.char '"'] = true := rfl
  rw [quoted, Text.encodable_append, Text.encodable_append, hdoubled, hquote,
    Bool.true_and, Bool.and_true]

theorem encodable_field (t : Text) : (field t).encodable = t.encodable := by
  unfold field
  split
  · exact encodable_quoted t
  · rfl

theorem encodable_record (texts : List Text) :
    (record texts).encodable = texts.all Text.encodable := by
  have hend : ("\r\n" : Text).encodable = true := rfl
  rw [record, Text.encodable_append, hend, Bool.and_true]
  unfold fields
  split
  · rfl
  · rw [Text.encodable_join rfl, List.all_map]
    exact congrArg texts.all (funext encodable_field)

end Csv

namespace Row

/-- No text of a row holds a lone surrogate. -/
def Encodable (r : Row) : Prop :=
  r.name.encodable = true ∧ r.nodeId.encodable = true ∧ r.hash.encodable = true

theorem encodable_iff (r : Row) : (Csv.ofCells r.cells).encodable = true ↔ r.Encodable := by
  have hint : ∀ n, (Decimal.ofInt n).encodable = true := fun n => (Json.ascii_ofInt n).encodable
  rw [Csv.ofCells, Csv.encodable_record, cells]
  have hempty : Text.encodable [] = true := rfl
  cases r.propagation <;> simp [Cell.toText, hint, hempty, Encodable]

/-- The integers of a row have few enough digits to be written. -/
def Short (r : Row) : Prop :=
  Json.Fits r.seen ∧ Json.Fits r.height ∧ ∀ time ∈ r.propagation, Json.Fits time

theorem all_isShort_iff (r : Row) : r.cells.all Cell.isShort = true ↔ r.Short := by
  rw [cells, Short]
  cases r.propagation <;> simp [Cell.isShort, Json.isShort_iff]

theorem fault?_eq_none_iff (r : Row) :
    Output.fault? r.cells = none ↔ r.Short ∧ r.Encodable := by
  rw [Output.fault?, ← all_isShort_iff, ← encodable_iff]
  cases r.cells.all Cell.isShort <;> simp

end Row

end AuthorWatch
