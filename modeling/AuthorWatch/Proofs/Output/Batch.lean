import AuthorWatch.Proofs.Output
import AuthorWatch.Proofs.Text.Utf8

/-! A batch of rows is added whole or not at all, if all of its rows can be written, and the
count of the rows written is the number of rows that were added. A row that cannot be written,
for a text without an encoding or an integer that is too long, ends its batch early: the rows
before it stay in the file, and none of them is counted. -/

namespace AuthorWatch.Output

variable {o : Output} {files later : FileTree} {path : Path} {rows : List (List Cell)} {n m : ℕ}

/-! ### Rows in a file -/

theorem bytes_append (rows more : List (List Cell)) :
    bytes (rows ++ more) = bytes rows ++ bytes more := by
  rw [bytes, List.map_append, List.flatten_append, Utf8.encode_append]
  rfl

/-- Even a row without cells has its line end. -/
theorem bytes_ne_nil (h : rows ≠ []) : bytes rows ≠ [] := by
  obtain ⟨row, rest, rfl⟩ := List.exists_cons_of_ne_nil h
  exact Utf8.encode_ne_nil (by simp [Csv.ofCells, Csv.record, Text.ofString])

/-- A file holds what it held before, and after that the first `n` rows of a batch. -/
structure Gained (path : Path) (rows : List (List Cell)) (files later : FileTree) (n : ℕ) :
    Prop where
  le : n ≤ rows.length
  content : (later.contentAt? (files.place path)).getD []
    = (files.contentAt? (files.place path)).getD [] ++ bytes (rows.take n)

/-- The content of the file tells how many rows it gained. -/
theorem Gained.unique (h : Gained path rows files later n) (h' : Gained path rows files later m) :
    n = m := by
  have hlt : ∀ {i j : ℕ}, i < j → j ≤ rows.length → bytes (rows.take i) ≠ bytes (rows.take j) := by
    intro i j hij hj heq
    have hsplit : rows.take j = rows.take i ++ (rows.drop i).take (j - i) := by
      rw [← List.take_add, Nat.add_sub_cancel' hij.le]
    have hrest : (rows.drop i).take (j - i) ≠ [] :=
      List.ne_nil_of_length_pos (by rw [List.length_take, List.length_drop]; omega)
    rw [hsplit, bytes_append] at heq
    exact bytes_ne_nil hrest (List.self_eq_append_right.mp heq)
  have heq := List.append_cancel_left (h.content.symm.trans h'.content)
  rcases Nat.lt_trichotomy n m with hnm | hnm | hnm
  · exact absurd heq (hlt hnm h'.le)
  · exact hnm
  · exact absurd heq.symm (hlt hnm h.le)

/-! ### One batch -/

/-- All rows of a batch are at the end of the file, and they are counted. -/
structure Whole (o : Output) (files : FileTree) (rows : List (List Cell)) : Prop where
  gained : Gained o.path rows files (o.write files rows).files rows.length
  added : (o.write files rows).added = .ok rows.length
  output : (o.write files rows).output = { o with written := o.written + rows.length }

/-- A batch changes nothing, which is noted. -/
structure Dropped (o : Output) (files : FileTree) (rows : List (List Cell)) : Prop where
  unchanged : (o.write files rows).files = files
  added : (o.write files rows).added = .ok 0
  output : (o.write files rows).output = o
  noted : .outputNotWritten rows.length ∈ (o.write files rows).notices

/-- The first row that cannot be written ends a batch: the rows before it are at the end of the
file, no row is counted, and none is noted as lost. -/
structure CutShort (o : Output) (files : FileTree) (rows : List (List Cell)) : Prop where
  gained : ∃ n, Gained o.path rows files (o.write files rows).files n
    ∧ (∀ row ∈ rows.take n, fault? row = none)
    ∧ ∃ row f, rows[n]? = some row ∧ fault? row = some f
      ∧ (o.write files rows).added = .error f
  output : (o.write files rows).output = o
  silent : ∀ n, .outputNotWritten n ∉ (o.write files rows).notices

theorem take_sound (rows : List (List Cell)) : rows.take (sound rows).length = sound rows :=
  (List.prefix_iff_eq_take.mp (List.takeWhile_prefix _)).symm

/-- The first fault is that of the row after those before it. -/
theorem exists_row_of_fault {f : Failure} (h : rows.findSome? fault? = some f) :
    ∃ row, rows[(sound rows).length]? = some row ∧ fault? row = some f := by
  induction rows with
  | nil => cases h
  | cons row rest ih =>
    rw [List.findSome?_cons] at h
    cases hrow : fault? row with
    | none =>
      rw [hrow] at h
      rw [sound, List.takeWhile_cons, hrow]
      exact ih h
    | some g =>
      rw [hrow] at h
      cases h
      rw [sound, List.takeWhile_cons, hrow]
      exact ⟨row, rfl, hrow⟩

/-- A file that can be opened gains the rows before the first that cannot be written. -/
theorem gained_of_add (h : add files path rows = .ok later) :
    Gained path rows files later (sound rows).length where
  le := (List.takeWhile_prefix _).length_le
  content := by rw [(add_spec h).2, Option.getD_some, take_sound]

theorem gained_zero (files : FileTree) (path : Path) (rows : List (List Cell)) :
    Gained path rows files files 0 :=
  ⟨Nat.zero_le _, (List.append_nil _).symm⟩

theorem whole_nil (o : Output) (files : FileTree) : Whole o files [] :=
  ⟨gained_zero files o.path [], rfl, rfl⟩

/-- A batch that the file is opened for has one of two outcomes, and whether all rows can be
written decides which. -/
theorem cases_of_openable (rows : List (List Cell)) (h : files.Openable o.path) :
    ((∀ row ∈ rows, fault? row = none) ∧ Whole o files rows)
      ∨ (¬ ∀ row ∈ rows, fault? row = none) ∧ CutShort o files rows := by
  by_cases hr : rows = []
  · subst hr
    exact .inl ⟨List.forall_mem_nil _, whole_nil o files⟩
  · rcases o.write_cases files rows hr with
      ⟨e, hadd, -⟩ | ⟨added, hadd, hall, hw⟩ | ⟨added, f, hadd, hfault, hw⟩
    · obtain ⟨added, hopened⟩ := (FileTree.exists_append_iff _).mpr h
      cases hadd.symm.trans hopened
    · have hgained := gained_of_add hadd
      rw [sound_eq_self hall] at hgained
      refine .inl ⟨hall, ?_, ?_, ?_⟩ <;> rw [hw]
      exact hgained
    · have hrows : ¬ ∀ row ∈ rows, fault? row = none := by
        rw [← List.findSome?_eq_none_iff, hfault]
        exact nofun
      obtain ⟨row, hrow, hf⟩ := exists_row_of_fault hfault
      refine .inr ⟨hrows, ?_, ?_, ?_⟩ <;> rw [hw]
      · refine ⟨_, gained_of_add hadd, ?_, row, f, hrow, hf, rfl⟩
        rw [take_sound]
        intro row hrow
        exact Option.isNone_iff_eq_none.mp
          (List.mem_takeWhile_imp (p := fun row => (fault? row).isNone) hrow)
      · simp

/-- A batch is dropped if the file cannot be opened, and only then. -/
theorem dropped_iff : Dropped o files rows ↔ rows ≠ [] ∧ ¬ files.Openable o.path := by
  constructor
  · intro h
    refine ⟨?_, fun hopen => ?_⟩
    · rintro rfl
      cases h.noted
    · have hadded := h.added
      rcases cases_of_openable rows hopen with ⟨-, hwhole⟩ | ⟨-, hcut⟩
      · rw [hwhole.added] at hadded
        cases rows with
        | nil => cases h.noted
        | cons => cases hadded
      · obtain ⟨n, -, -, row, f, -, -, hf⟩ := hcut.gained
        rw [hf] at hadded
        cases hadded
  · rintro ⟨hr, hclosed⟩
    rcases o.write_cases files rows hr with ⟨e, -, hw⟩ | ⟨added, hadd, -⟩ | ⟨added, f, hadd, -⟩
    · refine ⟨?_, ?_, ?_, ?_⟩ <;> rw [hw]
      exact List.mem_cons_of_mem _ (List.mem_singleton_self _)
    · exact absurd ((FileTree.exists_append_iff _).mp ⟨added, hadd⟩) hclosed
    · exact absurd ((FileTree.exists_append_iff _).mp ⟨added, hadd⟩) hclosed

theorem whole_or_dropped (h : ∀ row ∈ rows, fault? row = none) :
    Whole o files rows ∨ Dropped o files rows := by
  by_cases hr : rows = []
  · subst hr
    exact .inl (whole_nil o files)
  · by_cases hopen : files.Openable o.path
    · rcases cases_of_openable rows hopen with ⟨-, hwhole⟩ | ⟨hnot, -⟩
      · exact .inl hwhole
      · exact absurd h hnot
    · exact .inr (dropped_iff.mpr ⟨hr, hopen⟩)

theorem cutShort_or_dropped (h : ∃ row ∈ rows, fault? row ≠ none) :
    CutShort o files rows ∨ Dropped o files rows := by
  obtain ⟨row, hrow, hnot⟩ := h
  by_cases hopen : files.Openable o.path
  · rcases cases_of_openable rows hopen with ⟨hall, -⟩ | ⟨-, hcut⟩
    · exact absurd (hall row hrow) hnot
    · exact .inl hcut
  · exact .inr (dropped_iff.mpr ⟨List.ne_nil_of_mem hrow, hopen⟩)

/-! ### Many batches -/

/-- An output after batches, each with the files as the batch finds them. -/
def afterAll (o : Output) (batches : List (FileTree × List (List Cell))) : Output :=
  batches.foldl (fun o batch => (o.write batch.1 batch.2).output) o

/-- The file gained so many rows from these batches together. -/
inductive GainedInAll : Output → List (FileTree × List (List Cell)) → ℕ → Prop
  | nil (o : Output) : GainedInAll o [] 0
  | cons {o : Output} {files : FileTree} {rows : List (List Cell)}
      {batches : List (FileTree × List (List Cell))} {n m : ℕ}
      (first : Gained o.path rows files (o.write files rows).files n)
      (rest : GainedInAll (o.write files rows).output batches m) :
      GainedInAll o ((files, rows) :: batches) (n + m)

/-- A batch is counted as what the file gains by it. -/
theorem gained_written (o : Output) (files : FileTree)
    (h : ∀ row ∈ rows, fault? row = none) :
    ∃ n, Gained o.path rows files (o.write files rows).files n
      ∧ (o.write files rows).output.written = o.written + n := by
  obtain hwhole | hdropped := whole_or_dropped h
  · exact ⟨rows.length, hwhole.gained, by rw [hwhole.output]⟩
  · refine ⟨0, ?_, congrArg written hdropped.output⟩
    rw [hdropped.unchanged]
    exact gained_zero files o.path rows

theorem GainedInAll.unique {o : Output} {batches : List (FileTree × List (List Cell))} {n m : ℕ}
    (h : GainedInAll o batches n) (h' : GainedInAll o batches m) : n = m := by
  induction h generalizing m with
  | nil o =>
    cases h'
    rfl
  | cons first _ ih =>
    cases h' with
    | cons first' rest' => rw [first.unique first', ih rest']

theorem exists_gainedInAll (o : Output) {batches : List (FileTree × List (List Cell))}
    (h : ∀ batch ∈ batches, ∀ row ∈ batch.2, fault? row = none) :
    ∃ n, GainedInAll o batches n ∧ (o.afterAll batches).written = o.written + n := by
  induction batches generalizing o with
  | nil => exact ⟨0, .nil o, rfl⟩
  | cons batch batches ih =>
    obtain ⟨files, rows⟩ := batch
    obtain ⟨hrows, hrest⟩ := List.forall_mem_cons.mp h
    obtain ⟨k, hgained, hwritten⟩ := gained_written o files hrows
    obtain ⟨m, hall, hcount⟩ := ih (o.write files rows).output hrest
    refine ⟨k + m, .cons hgained hall, ?_⟩
    rw [hwritten, Nat.add_assoc] at hcount
    exact hcount

/-- The rows counted are the rows that the file gained. -/
theorem gainedInAll_iff (o : Output) {batches : List (FileTree × List (List Cell))}
    (h : ∀ batch ∈ batches, ∀ row ∈ batch.2, fault? row = none) (n : ℕ) :
    GainedInAll o batches n ↔ (o.afterAll batches).written = o.written + n := by
  obtain ⟨k, hall, hcount⟩ := exists_gainedInAll o h
  refine ⟨fun hn => ?_, fun hn => ?_⟩
  · rw [hcount, hn.unique hall]
  · have hk : k = n := Nat.add_left_cancel (hcount.symm.trans hn)
    rwa [← hk]

/-- A batch whose rows can be written goes to the file as a whole and is counted, or it changes
nothing and that is noted, which happens only if the file cannot be opened; so the rows counted
are always those that the file gained. A batch with a row that cannot be written ends early and
is neither counted nor noted as lost, though the rows before that row stay in the file. -/
theorem batch_whole_or_nothing (o : Output) :
    (∀ files rows, (∀ row ∈ rows, fault? row = none) →
      Whole o files rows ∨ Dropped o files rows)
    ∧ (∀ files rows, (∃ row ∈ rows, fault? row ≠ none) →
      CutShort o files rows ∨ Dropped o files rows)
    ∧ (∀ files rows, Dropped o files rows ↔ rows ≠ [] ∧ ¬ files.Openable o.path)
    ∧ ∀ batches, (∀ batch ∈ batches, ∀ row ∈ batch.2, fault? row = none) →
      ∀ n, GainedInAll o batches n ↔ (o.afterAll batches).written = o.written + n :=
  ⟨fun _ _ => whole_or_dropped, fun _ _ => cutShort_or_dropped, fun _ _ => dropped_iff,
    fun _ => o.gainedInAll_iff⟩

def twoColumns : Output := ⟨⟨false, ["out"]⟩, ["n", "name"], 0⟩

/-- The file is there with its header; in the other tree a directory is in its place. -/
def openFiles : FileTree := ⟨[(["out"], .file (Utf8.encode (Csv.record ["n", "name"])))], []⟩

def blockedFiles : FileTree := ⟨[(["out"], .directory)], []⟩

def plainRows : List (List Cell) := [[.integer 1, .text "a"], [.integer 2, .empty]]

/-- The second row of the batch ends in half a pair. -/
def halfRows : List (List Cell) :=
  [[.integer 1, .text "a"], [.integer 2, .text [.surrogate ⟨0, by decide⟩]]]

theorem whole_of_plainRows :
    Whole twoColumns openFiles plainRows ∧ Dropped twoColumns blockedFiles plainRows
    ∧ (twoColumns.afterAll [(openFiles, plainRows), (blockedFiles, plainRows)]).written = 2
    ∧ GainedInAll twoColumns [(openFiles, plainRows), (blockedFiles, plainRows)] 2
    ∧ CutShort twoColumns openFiles halfRows := by
  obtain ⟨hwhole, hcut, hdropped, hcount⟩ := batch_whole_or_nothing twoColumns
  have hopen : ¬ Dropped twoColumns openFiles plainRows ∧ ¬ Dropped twoColumns openFiles halfRows :=
    ⟨fun h => ((hdropped _ _).mp h).2 ⟨rfl, .inl ⟨_, rfl⟩⟩,
      fun h => ((hdropped _ _).mp h).2 ⟨rfl, .inl ⟨_, rfl⟩⟩⟩
  have hplain : ∀ row ∈ plainRows, fault? row = none := by decide +kernel
  have hblocked : ¬ blockedFiles.Openable twoColumns.path := by
    rintro ⟨-, ⟨old, h⟩ | ⟨h, -⟩⟩ <;> cases h
  have hhalf : ∃ row ∈ halfRows, fault? row ≠ none :=
    ⟨_, List.mem_cons_of_mem _ (List.mem_singleton_self _), by decide +kernel⟩
  have hwritten : (twoColumns.afterAll [(openFiles, plainRows), (blockedFiles, plainRows)]).written
      = 2 := by decide +kernel
  refine ⟨?_, (hdropped _ _).mpr ⟨by decide, hblocked⟩, hwritten, ?_, ?_⟩
  · exact (hwhole _ _ hplain).resolve_right hopen.1
  · refine (hcount _ ?_ 2).mpr hwritten
    exact List.forall_mem_cons.mpr ⟨hplain, List.forall_mem_singleton.mpr hplain⟩
  · exact (hcut _ _ hhalf).resolve_right hopen.2

/-- The first row stays in the file, and the batch is neither whole nor dropped. -/
theorem row_kept_of_halfRows :
    (twoColumns.write openFiles halfRows).files.contentAt? ["out"]
      = some (Utf8.encode "n,name\r\n1,a\r\n")
    ∧ (twoColumns.write openFiles halfRows).added = .error .unencodable
    ∧ (twoColumns.write openFiles halfRows).output.written = 0
    ∧ (twoColumns.write openFiles halfRows).notices = [.outputWritten 2]
    ∧ ¬ (Whole twoColumns openFiles halfRows ∨ Dropped twoColumns openFiles halfRows) := by
  have hadded : (twoColumns.write openFiles halfRows).added = .error .unencodable := by
    decide +kernel
  refine ⟨by decide +kernel, hadded, by decide +kernel, by decide +kernel, ?_⟩
  rintro (h | h)
  · cases hadded.symm.trans h.added
  · cases hadded.symm.trans h.added

end AuthorWatch.Output
