import AuthorWatch.Csv
import Mathlib.Tactic.Common

/-! Reading comma-separated values, one glyph after another, and reading back what was
written. Fields stand between commas, bare or in quotes; a quote inside quotes is doubled,
and a carriage return with a line feed ends a record. -/

namespace AuthorWatch.Csv

/-- Where a reader stands in a field. -/
inductive Position where
  /-- Before a field. -/
  | before
  | bare (t : Text)
  | inside (t : Text)
  /-- After a quote inside quotes, which ends the field unless it is doubled. -/
  | closing (t : Text)
  /-- After the carriage return that ends a record. -/
  | ending (t : Text)
  deriving DecidableEq

/-- What a reader has read: whole records, and of another one whole fields and the start
of one more. -/
structure Reader where
  records : List (List Text)
  fields : List Text
  position : Position
  deriving DecidableEq

namespace Reader

def start : Reader := ⟨[], [], .before⟩

/-- The reader after a field that is not quoted any more. -/
def leave (r : Reader) (t : Text) (g : Glyph) : Option Reader :=
  if g = .char ',' then some { r with fields := r.fields ++ [t], position := .before }
  else if g = .char '\r' then some { r with position := .ending t }
  else none

def step (r : Reader) (g : Glyph) : Option Reader :=
  match r.position with
  | .before =>
    if g = .char '"' then some { r with position := .inside [] }
    else if isSpecial g then r.leave [] g
    else some { r with position := .bare [g] }
  | .bare t => if isSpecial g then r.leave t g else some { r with position := .bare (t ++ [g]) }
  | .inside t =>
    some { r with position := if g = .char '"' then .closing t else .inside (t ++ [g]) }
  | .closing t =>
    if g = .char '"' then some { r with position := .inside (t ++ [g]) } else r.leave t g
  | .ending t => if g = .char '\n' then some ⟨r.records ++ [r.fields ++ [t]], [], .before⟩ else none

/-- The records read, if the last of them is whole. -/
def whole (r : Reader) : Option (List (List Text)) :=
  if r.fields = [] ∧ r.position = .before then some r.records else none

end Reader

/-- The records of a text. -/
def read (t : Text) : Option (List (List Text)) := (t.foldlM Reader.step .start).bind Reader.whole

/-! ### Fields -/

variable (r : Reader)

theorem read_bare (t u : Text) (h : ∀ g ∈ u, isSpecial g = false) :
    u.foldlM Reader.step { r with position := .bare t }
      = some { r with position := .bare (t ++ u) } := by
  induction u generalizing t with
  | nil => simp
  | cons g u ih =>
    have hg : isSpecial g = false := h g (List.mem_cons_self ..)
    rw [List.foldlM_cons]
    simp only [Reader.step, hg, Bool.false_eq_true, if_false, Option.bind_eq_bind, Option.bind_some]
    rw [ih (t ++ [g]) fun g' hg' => h g' (List.mem_cons_of_mem _ hg'), List.append_assoc]
    rfl

theorem read_doubled (t u : Text) :
    (u.flatMap doubled).foldlM Reader.step { r with position := .inside t }
      = some { r with position := .inside (t ++ u) } := by
  induction u generalizing t with
  | nil => simp
  | cons g u ih =>
    have hglyph : (doubled g).foldlM Reader.step { r with position := .inside t }
        = some { r with position := .inside (t ++ [g]) } := by
      by_cases hg : g = .char '"'
      · subst hg; rfl
      · simp [doubled, hg, Reader.step]
    rw [List.flatMap_cons, List.foldlM_append, hglyph, Option.bind_eq_bind, Option.bind_some,
      ih (t ++ [g]), List.append_assoc]
    rfl

/-- A written field is read, and the field is left with what follows it. -/
theorem read_field (t : Text) (hr : r.position = .before) : ∃ after,
    (field t).foldlM Reader.step r = some after
      ∧ after.step (.char ',') = r.leave t (.char ',')
      ∧ after.step (.char '\r') = r.leave t (.char '\r') := by
  obtain ⟨records, fields, position⟩ := r
  cases hr
  unfold field
  split
  next hspecial =>
    refine ⟨⟨records, fields, .closing t⟩, ?_, rfl, rfl⟩
    have hbody := read_doubled ⟨records, fields, .before⟩ [] t
    rw [quoted, List.foldlM_append, List.foldlM_append]
    simp only [List.foldlM_cons, List.foldlM_nil, Reader.step, if_true, Option.bind_eq_bind,
      Option.bind_some, Option.pure_def]
    rw [hbody]
    rfl
  next hplain =>
    have hplain' : ∀ g ∈ t, isSpecial g = false := by simpa using hplain
    cases t with
    | nil => exact ⟨_, rfl, rfl, rfl⟩
    | cons g t =>
      have hg : isSpecial g = false := hplain' g (List.mem_cons_self ..)
      have hquote : g ≠ .char '"' := by
        rintro rfl
        cases hg
      refine ⟨⟨records, fields, .bare (g :: t)⟩, ?_, rfl, rfl⟩
      have hbare := read_bare ⟨records, fields, .before⟩ [g] t fun g' hg' =>
        hplain' g' (List.mem_cons_of_mem _ hg')
      rw [List.foldlM_cons]
      simp only [Reader.step, hg, hquote, Bool.false_eq_true, if_false, Option.bind_eq_bind,
        Option.bind_some]
      exact hbare

/-! ### Records -/

/-- Fields between commas, and the end of their record. -/
theorem read_fields (texts : List Text) (hne : texts ≠ []) (records : List (List Text))
    (fields : List Text) :
    (Text.join "," (texts.map field) ++ "\r\n").foldlM Reader.step ⟨records, fields, .before⟩
      = some ⟨records ++ [fields ++ texts], [], .before⟩ := by
  induction texts generalizing fields with
  | nil => exact absurd rfl hne
  | cons t texts ih =>
    obtain ⟨after, hfield, hcomma, hreturn⟩ := read_field ⟨records, fields, .before⟩ t rfl
    cases texts with
    | nil =>
      have hjoin : Text.join "," ([t].map field) = field t := by simp [Text.join]
      rw [hjoin, List.foldlM_append, hfield]
      change (after.step (.char '\r')).bind (fun r => (r.step (.char '\n')).bind some) = _
      rw [hreturn]
      rfl
    | cons u texts =>
      have hjoin : Text.join "," ((t :: u :: texts).map field)
          = field t ++ .char ',' :: Text.join "," ((u :: texts).map field) := by
        simp [Text.join, Text.ofString]
      rw [hjoin, List.append_assoc, List.foldlM_append, hfield]
      change (after.step (.char ',')).bind _ = _
      rw [hcomma]
      exact (ih (List.cons_ne_nil _ _) (fields ++ [t])).trans (by simp)

theorem read_record (texts : List Text) (hne : texts ≠ []) (records : List (List Text)) :
    (record texts).foldlM Reader.step ⟨records, [], .before⟩
      = some ⟨records ++ [texts], [], .before⟩ := by
  unfold record fields
  split
  · rfl
  · exact read_fields texts hne records []

theorem foldlM_records (rows : List (List Text)) (h : ∀ texts ∈ rows, texts ≠ [])
    (records : List (List Text)) :
    (rows.map record).flatten.foldlM Reader.step ⟨records, [], .before⟩
      = some ⟨records ++ rows, [], .before⟩ := by
  induction rows generalizing records with
  | nil => simp
  | cons texts rows ih =>
    rw [List.map_cons, List.flatten_cons, List.foldlM_append,
      read_record texts (h texts (List.mem_cons_self ..)), Option.bind_eq_bind, Option.bind_some,
      ih (fun texts ht => h texts (List.mem_cons_of_mem _ ht)), List.append_assoc,
      List.singleton_append]

/-- Written records are read back, whatever their fields hold. -/
theorem read_records (rows : List (List Text)) (h : ∀ texts ∈ rows, texts ≠ []) :
    read (rows.map record).flatten = some rows := by
  rw [read, Reader.start, foldlM_records rows h]
  rfl

end AuthorWatch.Csv
