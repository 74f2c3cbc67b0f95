import AuthorWatch.Output
import AuthorWatch.Proofs.Files.Tree
import Mathlib.Data.List.TakeWhile

/-! What a batch of rows does to the output: nothing if it is empty or the file cannot
be opened, and otherwise its rows are added up to the first that cannot be written. Only
the output file is touched, and a batch without a failure adds all its rows. -/

namespace AuthorWatch.Output

variable (o : Output) (files : FileTree) (rows : List (List Cell))

@[simp] theorem sound_nil : sound [] = [] := rfl

@[simp] theorem bytes_nil : bytes [] = [] := rfl

theorem encodable_of_fault? {row : List Cell} (h : fault? row = none) :
    (Csv.ofCells row).encodable = true := by
  rw [fault?] at h
  by_contra hn
  cases hs : row.all Cell.isShort <;> simp [hs, hn] at h

variable {rows} in
theorem sound_eq_self (h : ∀ row ∈ rows, fault? row = none) : sound rows = rows :=
  List.takeWhile_eq_self_iff.mpr fun row hrow => by rw [h row hrow]; rfl

theorem ofCells_texts (texts : List Text) :
    Csv.ofCells (texts.map Cell.text) = Csv.record texts := by
  have htexts : Cell.toText ∘ Cell.text = id := rfl
  rw [Csv.ofCells, List.map_map, htexts, List.map_id]

/-- A row of texts is written if it has an encoding. -/
theorem fault?_texts (texts : List Text) : fault? (texts.map Cell.text)
    = if (Csv.record texts).encodable then none else some .unencodable := by
  have hshort : (texts.map Cell.text).all Cell.isShort = true := by simp [Cell.isShort]
  rw [fault?, hshort, ofCells_texts]
  rfl

theorem write_nil : o.write files [] = ⟨files, o, .ok 0, []⟩ := rfl

theorem write_cases (h : rows ≠ []) :
    (∃ e, add files o.path rows = .error e ∧ o.write files rows
        = ⟨files, o, .ok 0, [.outputWritten rows.length, .outputNotWritten rows.length]⟩)
    ∨ (∃ added, add files o.path rows = .ok added ∧ (∀ row ∈ rows, fault? row = none)
        ∧ o.write files rows = ⟨added, { o with written := o.written + rows.length },
            .ok rows.length, [.outputWritten rows.length]⟩)
    ∨ (∃ added f, add files o.path rows = .ok added ∧ rows.findSome? fault? = some f
        ∧ o.write files rows = ⟨added, o, .error f, [.outputWritten rows.length]⟩) := by
  have he : rows.isEmpty = false := by simpa using h
  unfold write
  rw [he]
  cases hadd : add files o.path rows with
  | error e => exact .inl ⟨e, rfl, by simp only [Bool.false_eq_true, if_false]⟩
  | ok added =>
    cases hfault : rows.findSome? fault? with
    | none =>
      exact .inr (.inl ⟨added, rfl, List.findSome?_eq_none_iff.mp hfault, by
        simp only [Bool.false_eq_true, if_false]⟩)
    | some f =>
      exact .inr (.inr ⟨added, f, rfl, rfl, by
        simp only [Bool.false_eq_true, if_false]⟩)

/-- Adding rows that can be written does not end the handling of an event. -/
theorem added_write (h : ∀ row ∈ rows, fault? row = none) :
    ∃ n, (o.write files rows).added = .ok n := by
  by_cases hr : rows = []
  · subst hr; exact ⟨0, rfl⟩
  · rcases o.write_cases files rows hr with ⟨e, -, hw⟩ | ⟨added, -, -, hw⟩ | ⟨added, f, -, hf, -⟩
    · exact ⟨0, by rw [hw]⟩
    · exact ⟨rows.length, by rw [hw]⟩
    · rw [List.findSome?_eq_none_iff.mpr h] at hf; cases hf

/-- The count of the rows written is read by nothing. -/
theorem write_reset :
    ({ o with written := 0 }.write files rows).files = (o.write files rows).files
      ∧ ({ o with written := 0 }.write files rows).added = (o.write files rows).added
      ∧ { ({ o with written := 0 }.write files rows).output with written := 0 }
        = { (o.write files rows).output with written := 0 } := by
  unfold write
  cases rows.isEmpty with
  | true => exact ⟨rfl, rfl, rfl⟩
  | false =>
    cases add files o.path rows with
    | error e => simp
    | ok added => cases rows.findSome? fault? <;> simp

/-! ### The output file -/

variable {files rows} in
/-- The rows before the first that cannot be written go to the end of the file. -/
theorem add_spec {path : Path} {added : FileTree} (h : add files path rows = .ok added) :
    files.Touches added [files.place path]
      ∧ added.contentAt? (files.place path)
        = some ((files.contentAt? (files.place path)).getD [] ++ bytes (sound rows)) := by
  obtain ⟨hext, hcontent⟩ := FileTree.append_spec h
  refine ⟨⟨hext, fun q hq => ?_⟩, ?_⟩
  · rw [hcontent, Function.update_of_ne (by simpa using hq)]
  · rw [hcontent, Function.update_self]

theorem write_touches : files.Touches (o.write files rows).files [files.place o.path] := by
  by_cases hr : rows = []
  · subst hr
    exact .refl _ _
  · rcases o.write_cases files rows hr with
      ⟨e, -, hw⟩ | ⟨added, hadd, -, hw⟩ | ⟨added, f, hadd, -, hw⟩ <;> rw [hw]
    · exact .refl _ _
    · exact (add_spec hadd).1
    · exact (add_spec hadd).1

theorem output_write : (o.write files rows).output
    = { o with written := (o.write files rows).output.written } := by
  by_cases hr : rows = []
  · subst hr
    rfl
  · rcases o.write_cases files rows hr with
      ⟨e, -, hw⟩ | ⟨added, -, -, hw⟩ | ⟨added, f, -, -, hw⟩ <;> rw [hw]

/-- Nothing is ever taken out of the file. -/
theorem write_extends {old : List UInt8} (h : files.contentAt? (files.place o.path) = some old) :
    ∃ more, (o.write files rows).files.contentAt? (files.place o.path) = some (old ++ more) := by
  have hadds : ∀ {added}, add files o.path rows = .ok added →
      ∃ more, added.contentAt? (files.place o.path) = some (old ++ more) := by
    intro added hadd
    rw [(add_spec hadd).2, h]
    exact ⟨_, rfl⟩
  by_cases hr : rows = []
  · subst hr
    exact ⟨[], by rw [List.append_nil]; exact h⟩
  · rcases o.write_cases files rows hr with
      ⟨e, -, hw⟩ | ⟨added, hadd, -, hw⟩ | ⟨added, f, hadd, -, hw⟩ <;> rw [hw]
    · exact ⟨[], by rw [List.append_nil]; exact h⟩
    · exact hadds hadd
    · exact hadds hadd

/-- A batch without a failure is counted and its rows go to the end of the file. -/
theorem write_adds {n : Nat} (hadded : (o.write files rows).added = .ok n)
    (hnoted : ∀ n, Notice.outputNotWritten n ∉ (o.write files rows).notices) :
    (∀ row ∈ rows, fault? row = none)
      ∧ (o.write files rows).output = { o with written := o.written + rows.length }
      ∧ ∀ old, files.contentAt? (files.place o.path) = some old →
        (o.write files rows).files.contentAt? (files.place o.path) = some (old ++ bytes rows) := by
  by_cases hr : rows = []
  · subst hr
    exact ⟨List.forall_mem_nil _, rfl, fun old hold => by simpa [write_nil] using hold⟩
  · rcases o.write_cases files rows hr with
      ⟨e, -, hw⟩ | ⟨added, hadd, hall, hw⟩ | ⟨added, f, -, -, hw⟩
    · rw [hw] at hnoted
      simp at hnoted
    · rw [hw]
      refine ⟨hall, rfl, fun old hold => ?_⟩
      rw [(add_spec hadd).2, hold, sound_eq_self hall]
      rfl
    · rw [hw] at hadded
      cases hadded

/-! ### Opening -/

variable {files} in
theorem hasContent_iff {path : Path} (h : files.Leads path) : hasContent files path = true
    ↔ files.entryAt? (files.place path) = some .directory
      ∨ ∃ old, old ≠ [] ∧ files.contentAt? (files.place path) = some old := by
  rw [hasContent, FileTree.lookup?_of_leads h, FileTree.contentAt?]
  cases files.entryAt? (files.place path) with
  | none => simp
  | some entry => cases entry <;> simp [Entry.content?]

variable {files} in
theorem content_of_not_hasContent {path : Path} (h : files.Leads path)
    (hnot : hasContent files path = false) :
    (files.contentAt? (files.place path)).getD [] = [] := by
  cases hold : files.contentAt? (files.place path) with
  | none => rfl
  | some old =>
    by_contra hne
    have hhas := (hasContent_iff h).mpr (.inr ⟨old, hne, hold⟩)
    cases hnot.symm.trans hhas

/-- An output file that has content is opened as it is. -/
theorem prepare_of_content {path : Path} {columns : List Text} {content : List UInt8}
    (hdirs : files.Stands path.parent)
    (hfile : files.contentAt? (files.place path) = some content) (hne : content ≠ []) :
    prepare files path columns = (files, .ok ⟨path, columns, 0⟩) := by
  have hleads := FileTree.leads_of_stands hdirs
  have hhas : hasContent files path = true :=
    (hasContent_iff hleads).mpr (.inr ⟨content, hne, hfile⟩)
  have hadd : add files path [] = .ok files := FileTree.append_nil hleads hfile
  simp only [prepare, FileTree.makeDirectory_of_stands hdirs, hhas, if_true, hadd]
  rfl

variable {files} in
/-- An opened output file keeps the content that it has, and is given the header if it has none. -/
theorem prepare_spec {path : Path} {columns : List Text} {prepared : FileTree} {output : Output}
    (h : prepare files path columns = (prepared, .ok output)) :
    files.Touches prepared [files.place path] ∧ prepared.Stands path.parent
      ∧ output = ⟨path, columns, 0⟩
      ∧ ((∃ old, old ≠ [] ∧ files.contentAt? (files.place path) = some old
          ∧ prepared.contentAt? (files.place path) = some old)
        ∨ ((files.contentAt? (files.place path)).getD [] = []
          ∧ (Csv.record columns).encodable = true
          ∧ prepared.contentAt? (files.place path) = some (Utf8.encode (Csv.record columns)))) := by
  rw [prepare] at h
  rcases hmake : files.makeDirectory path.parent with ⟨made, _ | _⟩
  · rw [hmake] at h; cases h
  · have hstands := FileTree.stands_of_makeDirectory hmake
    have hleads := FileTree.leads_of_stands hstands
    have hmakes := FileTree.touches_of_makeDirectory hmake [files.place path]
    rw [hmake] at h
    have hplace : made.place path = files.place path := hmakes.place path
    have hmade : made.contentAt? (files.place path) = files.contentAt? (files.place path) :=
      (FileTree.touches_of_makeDirectory hmake []).content _ List.not_mem_nil
    dsimp only at h
    cases hadd : add made path (if hasContent made path then [] else [columns.map Cell.text]) with
    | error e => rw [hadd] at h; cases h
    | ok added =>
      rw [hadd] at h
      obtain ⟨htouches, hcontent⟩ := add_spec hadd
      rw [hplace] at htouches hcontent
      rw [hmade] at hcontent
      cases hhas : hasContent made path with
      | true =>
        rw [hhas] at h hcontent
        cases h
        refine ⟨hmakes.trans htouches, htouches.stands hstands, rfl, .inl ?_⟩
        rcases (hasContent_iff hleads).mp hhas with hdir | ⟨old, hne, hold⟩
        · rw [FileTree.contentAt?, htouches.directory _ (hplace ▸ hdir)] at hcontent
          cases hcontent
        · rw [hplace, hmade] at hold
          refine ⟨old, hne, hold, ?_⟩
          rw [hcontent, hold]
          simp
      | false =>
        rw [hhas] at h hcontent
        have hall : (Csv.record columns).encodable = true := by
          by_contra hn
          simp [fault?_texts, hn] at h
        have hfault : fault? (columns.map Cell.text) = none := by rw [fault?_texts, if_pos hall]
        have hempty := content_of_not_hasContent hleads hhas
        rw [hplace, hmade] at hempty
        simp only [Bool.false_eq_true, if_false, List.findSome?_cons, List.findSome?_nil,
          hfault] at h
        cases h
        refine ⟨hmakes.trans htouches, htouches.stands hstands, rfl, .inr ⟨hempty, hall, ?_⟩⟩
        rw [hcontent, hempty]
        simp [sound, hfault, bytes, ofCells_texts]

end AuthorWatch.Output
