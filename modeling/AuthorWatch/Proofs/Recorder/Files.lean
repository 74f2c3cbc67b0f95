import AuthorWatch.Proofs.Recorder.Process
import AuthorWatch.Proofs.Snapshot.Save

/-! What processing an item does to the files. It touches the snapshots, their drafts and
the output; if nothing goes wrong, then what was to be stored is stored. -/

namespace AuthorWatch.Recorder

/-- Handling did not end early, and every write was done. -/
structure Outcome.Complete (o : Outcome) : Prop where
  returns : ∃ rows, o.rows = .ok rows
  saved : ∀ kind, .snapshotNotSaved kind ∉ o.notices
  written : ∀ n, .outputNotWritten n ∉ o.notices

/-- A notice that something was not written. -/
def isLoss : Notice → Bool
  | .snapshotNotSaved _ | .outputNotWritten _ => true
  | _ => false

theorem Outcome.complete_iff (o : Outcome) :
    o.Complete ↔ o.rows.isOk = true ∧ ∀ notice ∈ o.notices, isLoss notice = false := by
  constructor
  · rintro ⟨⟨rows, hrows⟩, hsaved, hwritten⟩
    refine ⟨by rw [hrows]; rfl, fun notice hn => ?_⟩
    cases notice with
    | snapshotNotSaved kind => exact absurd hn (hsaved kind)
    | outputNotWritten n => exact absurd hn (hwritten n)
    | _ => rfl
  · rintro ⟨hok, hnotices⟩
    refine ⟨?_, fun kind hn => absurd (hnotices _ hn) (by simp [isLoss]),
      fun n hn => absurd (hnotices _ hn) (by simp [isLoss])⟩
    cases hr : o.rows with
    | error f => rw [hr] at hok; cases hok
    | ok rows => exact ⟨rows, rfl⟩

instance (o : Outcome) : Decidable o.Complete := decidable_of_iff' _ o.complete_iff

/-! ### Snapshots -/

variable (t : Tracker) (store : Option Store) (files : FileTree)

theorem saveSnapshot_touches (kind : SnapshotKind) (path : Path) (document : Json) :
    files.Touches (saveSnapshot kind files path document).1 (Snapshot.places files path) := by
  unfold saveSnapshot
  cases hsave : Snapshot.save files path document with
  | error f => exact .refl _ _
  | ok saved => exact (Snapshot.save_spec hsave).1

/-- The document is in the file at the path. -/
def Stored (files : FileTree) (path : Path) (document : Json) : Prop :=
  document.isWritable = true ∧ files.content? path = some (Utf8.encode document.write)

variable {files} in
theorem stored_of_touches {later : FileTree} {places : List Place} {path : Path} {document : Json}
    (h : Stored files path document) (ht : files.Touches later places)
    (hp : files.place path ∉ places) : Stored later path document :=
  ⟨h.1, ht.content?_eq_some hp h.2⟩

theorem stored_saveSnapshot (kind : SnapshotKind) (path : Path) (document : Json)
    (hdone : (saveSnapshot kind files path document).2.1 = .ok ())
    (hnoted : .snapshotNotSaved kind ∉ (saveSnapshot kind files path document).2.2) :
    Stored (saveSnapshot kind files path document).1 path document := by
  unfold saveSnapshot at hdone hnoted ⊢
  cases hsave : Snapshot.save files path document with
  | error f => rw [hsave] at hdone; cases hdone
  | ok saved =>
    rw [hsave] at hnoted
    have hsaved : saved.done = true := by
      by_contra hn
      simp [hn] at hnoted
    exact (Snapshot.save_spec hsave).2 hsaved

section

variable (s : Store)

/-- After an announcement the registry alone is saved. -/
theorem saveAll_false :
    saveAll t s files false = saveSnapshot .nodes files s.nodes t.registry.toJson := by
  unfold saveAll
  rcases saveSnapshot .nodes files s.nodes t.registry.toJson with ⟨saved, done, notices⟩
  cases done <;> rfl

/-- After an import the ledger is saved once the registry is. -/
theorem saveAll_true {saved : FileTree} {notices : List Notice}
    (h : saveSnapshot .nodes files s.nodes t.registry.toJson = (saved, .ok (), notices)) :
    saveAll t s files true
      = ((saveSnapshot .blocks saved s.blocks t.ledger.toJson).1,
        (saveSnapshot .blocks saved s.blocks t.ledger.toJson).2.1,
        notices ++ (saveSnapshot .blocks saved s.blocks t.ledger.toJson).2.2) := by
  simp only [saveAll, h]

theorem saveAll_touches (withLedger : Bool) : files.Touches (saveAll t s files withLedger).1
    (Snapshot.places files s.nodes ++ Snapshot.places files s.blocks) := by
  have hnodes := saveSnapshot_touches files .nodes s.nodes t.registry.toJson
  have hnodes' := hnodes.mono (List.subset_append_left _ (Snapshot.places files s.blocks))
  cases withLedger with
  | false => rwa [saveAll_false]
  | true =>
    rcases hsave : saveSnapshot .nodes files s.nodes t.registry.toJson with ⟨saved, done, notices⟩
    rw [hsave] at hnodes hnodes'
    cases done with
    | error f => simpa [saveAll, hsave] using hnodes'
    | ok _ =>
      have hblocks := saveSnapshot_touches saved .blocks s.blocks t.ledger.toJson
      rw [Snapshot.places_of_extends hnodes.toExtends] at hblocks
      rw [saveAll_true t files s hsave]
      exact hnodes'.trans (hblocks.mono (List.subset_append_right ..))

theorem stored_saveAll (hapart : files.place s.nodes ∉ Snapshot.places files s.blocks)
    (hdone : (saveAll t s files true).2.1 = .ok ())
    (hnoted : ∀ kind, .snapshotNotSaved kind ∉ (saveAll t s files true).2.2) :
    Stored (saveAll t s files true).1 s.nodes t.registry.toJson
      ∧ Stored (saveAll t s files true).1 s.blocks t.ledger.toJson := by
  have hnodes := saveSnapshot_touches files .nodes s.nodes t.registry.toJson
  have hstored := stored_saveSnapshot files .nodes s.nodes t.registry.toJson
  rcases hsave : saveSnapshot .nodes files s.nodes t.registry.toJson with ⟨saved, done, notices⟩
  rw [hsave] at hnodes hstored
  cases done with
  | error f => simp [saveAll, hsave] at hdone
  | ok _ =>
    rw [saveAll_true t files s hsave] at hdone hnoted ⊢
    have hblocks := saveSnapshot_touches saved .blocks s.blocks t.ledger.toJson
    have hregistry : Stored saved s.nodes t.registry.toJson :=
      hstored rfl fun hm => hnoted .nodes (List.mem_append_left _ hm)
    refine ⟨stored_of_touches hregistry hblocks ?_, stored_saveSnapshot saved _ _ _ hdone
      fun hm => hnoted .blocks (List.mem_append_right _ hm)⟩
    rwa [Snapshot.places_of_extends hnodes.toExtends, hnodes.place]

end

/-- The places of the snapshots and their drafts. -/
def savePlaces (store : Option Store) (files : FileTree) : List Place :=
  store.elim [] fun s => Snapshot.places files s.nodes ++ Snapshot.places files s.blocks

theorem savePlaces_of_extends {later : FileTree} (h : files.Extends later) :
    savePlaces store later = savePlaces store files := by
  cases store with
  | none => rfl
  | some s => simp only [savePlaces, Option.elim, Snapshot.places_of_extends h]

theorem keep_false (s : Store) :
    keep t (some s) files false = saveSnapshot .nodes files s.nodes t.registry.toJson :=
  saveAll_false ..

theorem keep_touches (withLedger : Bool) :
    files.Touches (keep t store files withLedger).1 (savePlaces store files) := by
  cases store with
  | none => exact .refl _ _
  | some s => exact saveAll_touches t files s withLedger

/-! ### Rows -/

variable (output : Option Output) (rows : List Row)

/-- The place of the output. -/
def rowPlaces (output : Option Output) (files : FileTree) : List Place :=
  output.elim [] fun o => [files.place o.path]

theorem addRows_touches :
    files.Touches (addRows output files rows).files (rowPlaces output files) := by
  cases output with
  | none => exact .refl _ _
  | some o => exact o.write_touches files _

/-- Rows are added to the output or leave it as it is; it stays the output of the recorder. -/
theorem addRows_extends {o : Output} {old : List UInt8}
    (hold : files.contentAt? (files.place o.path) = some old) :
    (∃ more, (addRows (some o) files rows).files.contentAt? (files.place o.path)
        = some (old ++ more))
      ∧ ∃ written, (addRows (some o) files rows).output = some { o with written := written } :=
  ⟨o.write_extends files _ hold, _, congrArg some (o.output_write files _)⟩

/-- Rows that are added without a loss are all in the output. -/
theorem addRows_adds {o : Output} (hdone : (addRows (some o) files rows).done = .ok ())
    (hnoted : ∀ n, .outputNotWritten n ∉ (addRows (some o) files rows).notices) :
    (∀ row ∈ rows, Output.fault? row.cells = none)
      ∧ (addRows (some o) files rows).output
        = some { o with written := o.written + rows.length }
      ∧ ∀ old, files.contentAt? (files.place o.path) = some old →
        (addRows (some o) files rows).files.contentAt? (files.place o.path)
          = some (old ++ Output.bytes (rows.map Row.cells)) := by
  obtain ⟨n, hadded⟩ : ∃ n, (o.write files (rows.map Row.cells)).added = .ok n := by
    cases hadded : (o.write files (rows.map Row.cells)).added with
    | error f =>
      simp only [addRows, hadded] at hdone
      cases hdone
    | ok n => exact ⟨n, rfl⟩
  obtain ⟨hall, houtput, hcontent⟩ := o.write_adds files _ hadded hnoted
  rw [List.length_map] at houtput
  exact ⟨List.forall_mem_map.mp hall, congrArg some houtput, hcontent⟩

/-! ### Items -/

variable (s : Storage)

/-- The places of the files that a storage writes. -/
def places (s : Storage) (files : FileTree) : List Place :=
  rowPlaces s.output files ++ savePlaces s.store files

/-- The output after the rows of an import. -/
def addedBy (b : BlockImport) (now : Int) : Added :=
  addRows s.output files (t.step now (.event (.blockImport b))).2

/-- The saves after the rows of an import. -/
def savedBy (b : BlockImport) (now : Int) : FileTree × Except Failure Unit × List Notice :=
  keep (t.step now (.event (.blockImport b))).1 s.store (addedBy t files s b now).files true

variable {s} in
theorem savedBy_of_store {kept : Store} (h : s.store = some kept) (b : BlockImport) (now : Int) :
    savedBy t files s b now
      = saveAll (t.step now (.event (.blockImport b))).1 kept (addedBy t files s b now).files
        true := by
  rw [savedBy, h]
  rfl

theorem savedBy_touches (b : BlockImport) (now : Int) :
    (addedBy t files s b now).files.Touches (savedBy t files s b now).1
      (savePlaces s.store files) := by
  have hsaves := keep_touches (t.step now (.event (.blockImport b))).1 s.store
    (addedBy t files s b now).files true
  have hadds : files.Touches (addedBy t files s b now).files (rowPlaces s.output files) :=
    addRows_touches ..
  rwa [savePlaces_of_extends s.store files hadds.toExtends] at hsaves

/-- After an announcement the registry is saved. -/
theorem process_announce (a : Announce) (now : Int) :
    process ⟨t, s⟩ files (.event (.announce a)) now
      = ⟨⟨(t.step now (.event (.announce a))).1, s⟩,
        (keep (t.step now (.event (.announce a))).1 s.store files false).1,
        (keep (t.step now (.event (.announce a))).1 s.store files false).2.1.map fun _ => [],
        t.notices now (.event (.announce a))
          ++ (keep (t.step now (.event (.announce a))).1 s.store files false).2.2⟩ := rfl

/-- An import whose rows could not be added saves nothing. -/
theorem process_import_error {b : BlockImport} {now : Int} {f : Failure}
    (h : (addedBy t files s b now).done = .error f) :
    process ⟨t, s⟩ files (.event (.blockImport b)) now
      = ⟨⟨(t.step now (.event (.blockImport b))).1,
          { s with output := (addedBy t files s b now).output }⟩,
        (addedBy t files s b now).files, .error f,
        t.notices now (.event (.blockImport b)) ++ (addedBy t files s b now).notices⟩ := by
  unfold addedBy at h
  simp only [process, record, h, addedBy]
  rfl

theorem process_import_ok {b : BlockImport} {now : Int}
    (h : (addedBy t files s b now).done = .ok ()) :
    process ⟨t, s⟩ files (.event (.blockImport b)) now
      = ⟨⟨(t.step now (.event (.blockImport b))).1,
          { s with output := (addedBy t files s b now).output }⟩,
        (savedBy t files s b now).1,
        (savedBy t files s b now).2.1.map fun _ => (t.step now (.event (.blockImport b))).2,
        t.notices now (.event (.blockImport b))
          ++ ((addedBy t files s b now).notices ++ (savedBy t files s b now).2.2)⟩ := by
  unfold addedBy at h
  simp only [process, record, h, savedBy, addedBy]

variable {t s files store} {o : Output} {item : Item} {now : Int}

theorem process_touches :
    files.Touches (process ⟨t, s⟩ files item now).files (places s files) := by
  cases item with
  | foreign => exact .refl _ _
  | event e =>
    cases e with
    | announce a =>
      rw [process_announce]
      exact (keep_touches ..).mono (List.subset_append_right ..)
    | blockImport b =>
      have hadds : files.Touches (addedBy t files s b now).files (places s files) :=
        (addRows_touches ..).mono (List.subset_append_left ..)
      rcases hadded : (addedBy t files s b now).done with f | _
      · rwa [process_import_error t files s hadded]
      · rw [process_import_ok t files s hadded]
        exact hadds.trans ((savedBy_touches t files s b now).mono (List.subset_append_right ..))

variable (t item now) in
/-- However an item comes out, the output only grows, and stays where it is. -/
theorem process_extends (hapart : files.place o.path ∉ savePlaces store files) {old : List UInt8}
    (hold : files.contentAt? (files.place o.path) = some old) :
    (∃ more, (process ⟨t, ⟨store, some o⟩⟩ files item now).files.contentAt? (files.place o.path)
        = some (old ++ more))
      ∧ ∃ written, (process ⟨t, ⟨store, some o⟩⟩ files item now).recorder.storage
        = ⟨store, some { o with written := written }⟩ := by
  cases item with
  | foreign => exact ⟨⟨[], by simpa [process] using hold⟩, o.written, rfl⟩
  | event e =>
    cases e with
    | announce a =>
      rw [process_announce]
      refine ⟨⟨[], ?_⟩, o.written, rfl⟩
      rw [(keep_touches ..).content _ hapart, List.append_nil, hold]
    | blockImport b =>
      obtain ⟨⟨more, hmore⟩, written, houtput⟩ :=
        addRows_extends files (t.step now (.event (.blockImport b))).2 hold
      rcases hadded : (addedBy t files ⟨store, some o⟩ b now).done with f | _
      · rw [process_import_error t files _ hadded]
        exact ⟨⟨more, hmore⟩, written, congrArg (Storage.mk store) houtput⟩
      · rw [process_import_ok t files _ hadded]
        refine ⟨⟨more, ?_⟩, written, congrArg (Storage.mk store) houtput⟩
        exact ((savedBy_touches t files ⟨store, some o⟩ b now).content _ hapart).trans hmore

theorem returns_of_map_eq_ok {done : Except Failure Unit} {rows rows' : List Row}
    (h : (done.map fun _ => rows) = .ok rows') : done = .ok () := by
  cases done with
  | error f => cases h
  | ok _ => rfl

/-- A complete import added its rows, and saved both snapshots after that. -/
theorem complete_import {b : BlockImport}
    (h : (process ⟨t, s⟩ files (.event (.blockImport b)) now).Complete) :
    (addedBy t files s b now).done = .ok ()
      ∧ (∀ n, .outputNotWritten n ∉ (addedBy t files s b now).notices)
      ∧ (savedBy t files s b now).2.1 = .ok ()
      ∧ ∀ kind, .snapshotNotSaved kind ∉ (savedBy t files s b now).2.2 := by
  obtain ⟨rows, hrows⟩ := h.returns
  rcases hadded : (addedBy t files s b now).done with f | _
  · rw [process_import_error t files s hadded] at hrows
    cases hrows
  · obtain ⟨-, hsaved, hwritten⟩ := h
    rw [process_import_ok t files s hadded] at hrows hsaved hwritten
    refine ⟨rfl, fun m hm => hwritten m ?_, returns_of_map_eq_ok hrows,
      fun kind hm => hsaved kind ?_⟩
    · exact List.mem_append_right _ (List.mem_append_left _ hm)
    · exact List.mem_append_right _ (List.mem_append_right _ hm)

/-- Complete handling adds the rows to the output, and counts them. -/
theorem process_adds (hapart : files.place o.path ∉ savePlaces store files)
    (h : (process ⟨t, ⟨store, some o⟩⟩ files item now).Complete) :
    (process ⟨t, ⟨store, some o⟩⟩ files item now).rows = .ok (t.step now item).2
      ∧ (process ⟨t, ⟨store, some o⟩⟩ files item now).recorder = ⟨(t.step now item).1,
        ⟨store, some { o with written := o.written + (t.step now item).2.length }⟩⟩
      ∧ (∀ row ∈ (t.step now item).2, Output.fault? row.cells = none)
      ∧ ∀ old, files.contentAt? (files.place o.path) = some old →
        (process ⟨t, ⟨store, some o⟩⟩ files item now).files.contentAt? (files.place o.path)
          = some (old ++ Output.bytes ((t.step now item).2.map Row.cells)) := by
  cases item with
  | foreign =>
    refine ⟨rfl, rfl, List.forall_mem_nil _, fun old hold => ?_⟩
    simpa [process, Tracker.step] using hold
  | event e =>
    cases e with
    | announce a =>
      obtain ⟨rows, hrows⟩ := h.returns
      rw [process_announce] at hrows ⊢
      refine ⟨by rw [returns_of_map_eq_ok hrows]; rfl, rfl, List.forall_mem_nil _,
        fun old hold => ?_⟩
      dsimp only
      rw [(keep_touches ..).content _ hapart, hold]
      simp [Tracker.step]
    | blockImport b =>
      obtain ⟨hadded, hnoted, hdone, -⟩ := complete_import h
      obtain ⟨hall, houtput, hcontent⟩ := addRows_adds files _ hadded hnoted
      rw [process_import_ok t files _ hadded, hdone]
      refine ⟨rfl, ?_, hall, fun old hold => ?_⟩
      · exact congrArg (fun output => Recorder.mk _ (Storage.mk store output)) houtput
      · exact ((savedBy_touches t files ⟨store, some o⟩ b now).content _ hapart).trans
          (hcontent old hold)

variable {kept : Store}

/-- After a complete announcement the registry is stored. -/
theorem stored_announce {a : Announce} (hstore : s.store = some kept)
    (h : (process ⟨t, s⟩ files (.event (.announce a)) now).Complete) :
    Stored (process ⟨t, s⟩ files (.event (.announce a)) now).files kept.nodes
      (t.step now (.event (.announce a))).1.registry.toJson := by
  obtain ⟨⟨rows, hrows⟩, hsaved, -⟩ := h
  rw [process_announce, hstore, keep_false] at hrows hsaved ⊢
  exact stored_saveSnapshot files _ _ _ (returns_of_map_eq_ok hrows)
    fun hm => hsaved .nodes (List.mem_append_right _ hm)

/-- After a complete import the registry and the ledger are stored. -/
theorem stored_import {b : BlockImport} (hstore : s.store = some kept)
    (hapart : files.place kept.nodes ∉ Snapshot.places files kept.blocks)
    (h : (process ⟨t, s⟩ files (.event (.blockImport b)) now).Complete) :
    Stored (process ⟨t, s⟩ files (.event (.blockImport b)) now).files kept.nodes
        (t.step now (.event (.blockImport b))).1.registry.toJson
      ∧ Stored (process ⟨t, s⟩ files (.event (.blockImport b)) now).files kept.blocks
        (t.step now (.event (.blockImport b))).1.ledger.toJson := by
  obtain ⟨hadded, -, hdone, hsaved⟩ := complete_import h
  have hadds : files.Touches (addedBy t files s b now).files (rowPlaces s.output files) :=
    addRows_touches ..
  rw [process_import_ok t files s hadded]
  rw [savedBy_of_store t files hstore] at hdone hsaved ⊢
  refine stored_saveAll _ _ _ ?_ hdone hsaved
  rwa [hadds.place, Snapshot.places_of_extends hadds.toExtends]

end AuthorWatch.Recorder
