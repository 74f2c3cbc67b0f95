import AuthorWatch.Feed.Frame
import AuthorWatch.Proofs.Csv.Encoding
import AuthorWatch.Proofs.Output.Batch
import AuthorWatch.Proofs.Recorder.Course
import AuthorWatch.Proofs.Recorder.Files
import AuthorWatch.Proofs.Recorder.Visit

/-! What comes of files that fail. What is in memory never depends on them. The handling of
an item ends early in two cases only: a row that cannot be written comes to an output that can
be opened, or a snapshot is to be saved under a path that names no file. In all other cases
every save was attempted, and what could not be written is noted. -/

namespace AuthorWatch

open Recorder (Outcome)

/-! ### Saves -/

namespace Snapshot

/-- The save was attempted and left these files; if it is not done, that is noted. -/
def Attempted (kind : SnapshotKind) (files : FileTree) (path : Path) (document : Json)
    (later : FileTree) (notices : List Notice) : Prop :=
  ∃ saved, save files path document = .ok saved ∧ saved.files = later
    ∧ (saved.done = false → .snapshotNotSaved kind ∈ notices)

variable {kind : SnapshotKind} {files later : FileTree} {path : Path} {document : Json}
  {notices more : List Notice}

theorem Attempted.mono (h : Attempted kind files path document later notices)
    (hsub : notices ⊆ more) : Attempted kind files path document later more := by
  obtain ⟨saved, hsave, hlater, hnoted⟩ := h
  exact ⟨saved, hsave, hlater, fun hdone => hsub (hnoted hdone)⟩

theorem attempted_saveSnapshot (hp : path.Named) (kind : SnapshotKind) (files : FileTree)
    (document : Json) :
    Attempted kind files path document (Recorder.saveSnapshot kind files path document).1
      (Recorder.saveSnapshot kind files path document).2.2 := by
  have hok := Recorder.saveSnapshot_ok files hp kind document
  unfold Recorder.saveSnapshot at hok ⊢
  cases hsave : save files path document with
  | error f => rw [hsave] at hok; cases hok
  | ok saved => exact ⟨saved, hsave, rfl, fun hdone => by simp [hdone]⟩

theorem saveSnapshot_error (hp : ¬ path.Named) (kind : SnapshotKind) (files : FileTree)
    (document : Json) :
    Recorder.saveSnapshot kind files path document = (files, .error (.nameless path), []) := by
  rw [Path.Named, not_not] at hp
  simp [Recorder.saveSnapshot, save, Path.sibling?, hp]

end Snapshot

namespace Recorder

variable (t : Tracker) {s : Store} (files : FileTree)

/-- With names, both saves of an import are attempted, one after the other. -/
theorem attempted_saveAll (h : s.Named) :
    ∃ between, Snapshot.Attempted .nodes files s.nodes t.registry.toJson between
        (saveAll t s files true).2.2
      ∧ Snapshot.Attempted .blocks between s.blocks t.ledger.toJson (saveAll t s files true).1
        (saveAll t s files true).2.2 := by
  have hnodes := Snapshot.attempted_saveSnapshot h.1 .nodes files t.registry.toJson
  have hok := saveSnapshot_ok files h.1 .nodes t.registry.toJson
  rcases hsave : saveSnapshot .nodes files s.nodes t.registry.toJson with ⟨between, done, notices⟩
  rw [hsave] at hnodes hok
  cases hok
  have hblocks := Snapshot.attempted_saveSnapshot h.2 .blocks between t.ledger.toJson
  rw [saveAll_true t files s hsave]
  exact ⟨between, hnodes.mono (List.subset_append_left ..),
    hblocks.mono (List.subset_append_right ..)⟩

/-- Without a name, a save ends the handling early. -/
theorem saveAll_error (h : ¬ s.Named) : ∃ f, (saveAll t s files true).2.1 = .error f := by
  by_cases hn : s.nodes.Named
  · have hb : ¬ s.blocks.Named := fun hb => h ⟨hn, hb⟩
    have hok := saveSnapshot_ok files hn .nodes t.registry.toJson
    rcases hsave : saveSnapshot .nodes files s.nodes t.registry.toJson
      with ⟨between, done, notices⟩
    rw [hsave] at hok
    cases hok
    rw [saveAll_true t files s hsave, Snapshot.saveSnapshot_error hb]
    exact ⟨_, rfl⟩
  · rw [saveAll, Snapshot.saveSnapshot_error hn]
    exact ⟨_, rfl⟩

end Recorder

/-! ### Rows -/

namespace Output

/-- The rows come to an output that can be opened, and one of them cannot be written: it holds a
lone surrogate, or an integer that is too long. -/
def Chokes (o : Output) (files : FileTree) (rows : List Row) : Prop :=
  (∃ row ∈ rows, ¬ (row.Short ∧ row.Encodable)) ∧ files.Openable o.path

variable {o : Output} {output : Option Output} {files : FileTree} {rows : List Row}

theorem exists_fault_iff : (∃ row ∈ rows, ¬ (row.Short ∧ row.Encodable))
    ↔ ¬ ∀ row ∈ rows.map Row.cells, fault? row = none := by
  simp only [List.forall_mem_map, Row.fault?_eq_none_iff, not_forall, exists_prop]

theorem chokes_iff :
    o.Chokes files rows ↔ ∃ f, (o.write files (rows.map Row.cells)).added = .error f := by
  rw [Chokes, exists_fault_iff]
  by_cases hopen : files.Openable o.path
  · rcases cases_of_openable (rows.map Row.cells) hopen with ⟨hall, hwhole⟩ | ⟨hnot, hcut⟩
    · rw [hwhole.added]
      exact iff_of_false (fun h => h.1 hall) (fun ⟨f, hf⟩ => nomatch hf)
    · obtain ⟨n, -, -, row, f, -, -, hf⟩ := hcut.gained
      exact iff_of_true ⟨hnot, hopen⟩ ⟨f, hf⟩
  · refine iff_of_false (fun h => hopen h.2) ?_
    by_cases hr : rows.map Row.cells = []
    · rw [hr]
      exact fun ⟨f, hf⟩ => nomatch hf
    · rw [(dropped_iff.mpr ⟨hr, hopen⟩).added]
      exact fun ⟨f, hf⟩ => nomatch hf

theorem addRows_error_iff : (∃ f, (Recorder.addRows output files rows).done = .error f)
    ↔ ∃ o ∈ output, o.Chokes files rows := by
  cases output with
  | none => simp [Recorder.addRows]
  | some o =>
    simp only [Option.mem_some_iff, exists_eq_left', chokes_iff, Recorder.addRows]
    cases (o.write files (rows.map Row.cells)).added <;> simp [Except.map]

/-- Rows for an output that cannot be opened are noted as lost, and change no file. -/
theorem addRows_of_closed (hr : rows ≠ []) (hclosed : ¬ files.Openable o.path) :
    (Recorder.addRows (some o) files rows).files = files
      ∧ .outputNotWritten rows.length ∈ (Recorder.addRows (some o) files rows).notices := by
  have hne : rows.map Row.cells ≠ [] := (List.map_eq_nil_iff (f := Row.cells)).not.mpr hr
  have hdropped : o.Dropped files (rows.map Row.cells) := dropped_iff.mpr ⟨hne, hclosed⟩
  have hnoted := hdropped.noted
  rw [List.length_map] at hnoted
  exact ⟨hdropped.unchanged, hnoted⟩

end Output

/-! ### Items -/

namespace Storage

/-- The handling of an item ends early. -/
def EndsEarly (s : Storage) (files : FileTree) (rows : List Row) : Item → Prop
  | .event (.announce _) => ∃ store ∈ s.store, ¬ store.nodes.Named
  | .event (.blockImport _) =>
    (∃ o ∈ s.output, o.Chokes files rows) ∨ ∃ store ∈ s.store, ¬ store.Named
  | .foreign => False

/-- What was done to the files, with what failed noted: after an announcement the registry was
to be saved; after an import rows were to be added, and then both snapshots to be saved. -/
def Handled (s : Storage) (files : FileTree) (t : Tracker) (rows : List Row) (o : Outcome) :
    Item → Prop
  | .event (.announce _) =>
    (∀ store ∈ s.store,
      Snapshot.Attempted .nodes files store.nodes t.registry.toJson o.files o.notices)
    ∧ (s.store = none → o.files = files)
  | .event (.blockImport _) =>
    let added := (Recorder.addRows s.output files rows).files
    (∀ output ∈ s.output, rows ≠ [] → ¬ files.Openable output.path →
      added = files ∧ .outputNotWritten rows.length ∈ o.notices)
    ∧ (∀ store ∈ s.store, ∃ between,
      Snapshot.Attempted .nodes added store.nodes t.registry.toJson between o.notices
      ∧ Snapshot.Attempted .blocks between store.blocks t.ledger.toJson o.files o.notices)
    ∧ (s.store = none → o.files = added)
  | .foreign => o.files = files

end Storage

namespace Recorder

variable {t : Tracker} {s : Storage} {files : FileTree} {item : Item} {now : Int}

theorem error_of_endsEarly (h : s.EndsEarly files (t.step now item).2 item) :
    ∃ f, (process ⟨t, s⟩ files item now).rows = .error f := by
  cases item with
  | foreign => exact h.elim
  | event e =>
    cases e with
    | announce a =>
      obtain ⟨store, hstore, hnot⟩ := h
      rw [process_announce, Option.mem_def.mp hstore, keep, saveAll_false,
        Snapshot.saveSnapshot_error hnot]
      exact ⟨_, rfl⟩
    | blockImport b =>
      rcases hadded : (addedBy t files s b now).done with f | _
      · rw [process_import_error t files s hadded]
        exact ⟨f, rfl⟩
      · obtain ⟨store, hstore, hnot⟩ : ∃ store ∈ s.store, ¬ store.Named := by
          refine h.resolve_left fun hchokes => ?_
          obtain ⟨f, hf⟩ := Output.addRows_error_iff.mpr hchokes
          cases hadded.symm.trans hf
        obtain ⟨f, hf⟩ : ∃ f, (savedBy t files s b now).2.1 = .error f := by
          rw [savedBy_of_store t files hstore]
          exact saveAll_error _ _ hnot
        rw [process_import_ok t files s hadded, hf]
        exact ⟨f, rfl⟩

theorem handled_announce {a : Announce} (hnamed : ∀ store ∈ s.store, store.nodes.Named) :
    let o := process ⟨t, s⟩ files (.event (.announce a)) now
    o.rows = .ok [] ∧ s.Handled files (t.step now (.event (.announce a))).1 [] o
      (.event (.announce a)) := by
  intro o
  have ho : o = _ := process_announce t files s a now
  rw [ho]
  cases hstore : s.store with
  | none => exact ⟨rfl, fun store h => (by cases hstore.symm.trans h), fun _ => rfl⟩
  | some store =>
    rw [keep, saveAll_false, saveSnapshot_ok files (hnamed store hstore)]
    refine ⟨rfl, fun other hother => ?_, fun hnone => by cases hstore.symm.trans hnone⟩
    cases hstore.symm.trans hother
    exact (Snapshot.attempted_saveSnapshot (hnamed store hstore) ..).mono
      (List.subset_append_right ..)

theorem handled_import {b : BlockImport} (hadded : (addedBy t files s b now).done = .ok ())
    (hnamed : ∀ store ∈ s.store, store.Named) :
    let o := process ⟨t, s⟩ files (.event (.blockImport b)) now
    let stepped := t.step now (.event (.blockImport b))
    o.rows = .ok stepped.2 ∧ s.Handled files stepped.1 stepped.2 o (.event (.blockImport b)) := by
  intro o stepped
  have hok : (savedBy t files s b now).2.1 = .ok () := keep_ok _ _ hnamed true
  have ho : o = _ := process_import_ok t files s hadded
  rw [ho, hok]
  refine ⟨rfl, fun output houtput hr hclosed => ?_, fun store hstore => ?_, fun hnone => ?_⟩
  · obtain ⟨hfiles, hnoted⟩ := Output.addRows_of_closed hr hclosed
    rw [addedBy, Option.mem_def.mp houtput]
    exact ⟨hfiles, List.mem_append_right _ (List.mem_append_left _ hnoted)⟩
  · obtain ⟨between, hnodes, hblocks⟩ := attempted_saveAll stepped.1
      (addedBy t files s b now).files (hnamed store hstore)
    rw [savedBy_of_store t files hstore]
    refine ⟨between, hnodes.mono ?_, hblocks.mono ?_⟩
    · exact fun x hx => List.mem_append_right _ (List.mem_append_right _ hx)
    · exact fun x hx => List.mem_append_right _ (List.mem_append_right _ hx)
  · dsimp only
    rw [savedBy, hnone]
    rfl

theorem handled_of_not_endsEarly (h : ¬ s.EndsEarly files (t.step now item).2 item) :
    (process ⟨t, s⟩ files item now).rows = .ok (t.step now item).2
      ∧ s.Handled files (t.step now item).1 (t.step now item).2
        (process ⟨t, s⟩ files item now) item := by
  cases item with
  | foreign => exact ⟨rfl, rfl⟩
  | event e =>
    cases e with
    | announce a =>
      refine handled_announce fun store hstore => ?_
      by_contra hnot
      exact h ⟨store, hstore, hnot⟩
    | blockImport b =>
      obtain ⟨hchokes, hnames⟩ := not_or.mp h
      have hadded : (addedBy t files s b now).done = .ok () := by
        rcases hadded : (addedBy t files s b now).done with f | _
        · exact absurd (Output.addRows_error_iff.mp ⟨f, hadded⟩) hchokes
        · rfl
      refine handled_import hadded fun store hstore => ?_
      by_contra hnot
      exact hnames ⟨store, hstore, hnot⟩

/-- After any items, whatever files each of them found, another item leaves the registry and the
ledger that the items alone make. Its handling ends early exactly if a row of an import holds a
lone surrogate or an integer that is too long and comes to an output that can be opened, or a
snapshot to be saved has no name. Otherwise the rows are given back and all saves were attempted,
and failures are only noted. The counts and ages that notices name are taken to have few enough
digits to be written. -/
theorem failures_contained (r : Recorder) (visits : List Visit) (v : Visit) :
    let before := r.after visits
    let stepped := before.tracker.step v.arrival.now v.arrival.item
    let early := before.storage.EndsEarly v.files stepped.2 v.arrival.item
    (before.meet v).recorder.tracker = r.tracker.after ((visits ++ [v]).map Visit.arrival)
    ∧ ((∃ f, (before.meet v).rows = .error f) ↔ early)
    ∧ (¬ early → (before.meet v).rows = .ok stepped.2
      ∧ before.storage.Handled v.files stepped.1 stepped.2 (before.meet v) v.arrival.item) := by
  intro before stepped early
  have hmemory : (before.meet v).recorder.tracker
      = r.tracker.after ((visits ++ [v]).map Visit.arrival) := by
    rw [← tracker_after, after, List.foldl_append]
    rfl
  refine ⟨hmemory, ⟨fun ⟨f, hf⟩ => ?_, error_of_endsEarly⟩, handled_of_not_endsEarly⟩
  by_contra hnot
  rw [meet, (handled_of_not_endsEarly hnot).1] at hf
  cases hf

/-- A block, at a time when directories stand in the place of the output and of a snapshot. -/
def obstructed : Visit where
  files := ⟨[(["output"], .directory), (["nodes"], .directory)], []⟩
  arrival := ⟨.event (.blockImport ⟨1, 10, "a", 5⟩), 7⟩

/-- The row is given back, and both failures are noted. Without files it is given back too. -/
theorem contained_of_obstructed : ∃ r, (Recorder.open besidePlan .empty).recorder = .ok r
    ∧ (r.meet obstructed).rows = .ok [⟨7, "unknown_node_1", "unknown_id", 10, "a", some 5⟩]
    ∧ .outputNotWritten 1 ∈ (r.meet obstructed).notices
    ∧ .snapshotNotSaved .nodes ∈ (r.meet obstructed).notices
    ∧ ((⟨r.tracker, ⟨none, none⟩⟩ : Recorder).meet obstructed).rows = (r.meet obstructed).rows := by
  set r : Recorder := ⟨⟨.empty, .empty, besidePlan.policy, besidePlan.window⟩,
    ⟨some ⟨besidePlan.nodes, besidePlan.blocks⟩, some ⟨besidePlan.output, Row.columns, 0⟩⟩⟩ with hr
  have hclosed : ¬ obstructed.files.Openable besidePlan.output := by
    rintro ⟨-, ⟨old, h⟩ | ⟨h, -⟩⟩ <;> cases h
  obtain ⟨-, -, hstored⟩ := failures_contained r [] obstructed
  obtain ⟨hrows, hnotWritten, hsaves, -⟩ := hstored (by
    rintro (⟨o, ho, hchokes⟩ | ⟨store, hstore, hnot⟩)
    · cases ho
      exact hclosed hchokes.2
    · cases hstore
      exact hnot ⟨nofun, nofun⟩)
  obtain ⟨between, ⟨saved, hsave, -, hnotSaved⟩, -⟩ := hsaves _ rfl
  have hdone : (Except.ok saved : Except Failure Snapshot.Saved).map Snapshot.Saved.done
      = .ok false := by
    rw [← hsave, hr]
    decide +kernel
  obtain ⟨-, -, hmemory⟩ := failures_contained ⟨r.tracker, ⟨none, none⟩⟩ [] obstructed
  have hnowhere := (hmemory (by rintro (⟨o, ho, -⟩ | ⟨store, hstore, -⟩) <;> contradiction)).1
  refine ⟨r, rfl, hrows.trans ?_, (hnotWritten _ rfl nofun hclosed).2,
    hnotSaved (Except.ok.inj hdone), hnowhere.trans hrows.symm⟩
  rw [hr]
  decide +kernel

/-- An import of a hash that is half of a pair. -/
def halfPair : Message := .text "[6,[1,[10,\"\\ud800\",0,0,5]]]"

def halfPairVisit : Visit where
  files := (Recorder.open besidePlan .empty).files
  arrival := ⟨.event (.blockImport ⟨1, 10, [.surrogate 0], 5⟩), 7⟩

/-- Its row ends the handling early, and neither snapshot is saved. -/
theorem escaped_of_halfPair :
    (Frame.ofMessage halfPair).events.map Item.event = [halfPairVisit.arrival.item]
    ∧ ∃ r, (Recorder.open besidePlan .empty).recorder = .ok r
      ∧ (r.meet halfPairVisit).rows = .error .unencodable
      ∧ (r.meet halfPairVisit).files.exists besidePlan.nodes = false
      ∧ (r.meet halfPairVisit).files.exists besidePlan.blocks = false :=
  ⟨by decide +kernel, _, rfl, by decide +kernel, by decide +kernel, by decide +kernel⟩

end Recorder

end AuthorWatch
