import AuthorWatch.Recorder
import AuthorWatch.Proofs.Ledger.Step
import AuthorWatch.Proofs.Output

/-! Processing one item with files. What is in memory never depends on the files; they
only decide whether the rows of an item are given back or its handling ends early. -/

namespace AuthorWatch

/-- A path with segments names a file. -/
def Path.Named (p : Path) : Prop := p.segments ≠ []

/-- Both snapshots have a name. -/
def Store.Named (s : Store) : Prop := s.nodes.Named ∧ s.blocks.Named

/-- Beside a file that has a name there is one whose name has an ending more. -/
theorem Path.Named.exists_sibling {p : Path} (h : p.Named) (ending : Text) :
    ∃ beside, p.sibling? ending = some beside := by
  simp [sibling?, List.getLast?_eq_some_getLast h]

namespace Recorder

variable (r : Recorder) (files : FileTree) (item : Item) (now : Int)

@[simp] theorem tracker_process :
    (r.process files item now).recorder.tracker = (r.tracker.step now item).1 := by
  cases item with
  | foreign => rfl
  | event e => cases e <;> rfl

/-- An item gives back the rows that it brings, unless its handling ends early. -/
theorem rows_process : ∃ done : Except Failure Unit,
    (r.process files item now).rows = done.map fun _ => (r.tracker.step now item).2 := by
  cases item with
  | foreign => exact ⟨.ok (), rfl⟩
  | event e => cases e <;> exact ⟨_, rfl⟩

variable {r files item now} in
theorem rows_of_process_ok {rows : List Row} (h : (r.process files item now).rows = .ok rows) :
    rows = (r.tracker.step now item).2 := by
  obtain ⟨done, hd⟩ := r.rows_process files item now
  rw [hd] at h
  cases done with
  | error f => cases h
  | ok _ => cases h; rfl

@[simp] theorem store_process :
    (r.process files item now).recorder.storage.store = r.storage.store := by
  cases item with
  | foreign => rfl
  | event e =>
    cases e with
    | announce a => rfl
    | blockImport b =>
      simp only [process, record]
      split <;> rfl

@[simp] theorem isSome_output_process :
    (r.process files item now).recorder.storage.output.isSome = r.storage.output.isSome := by
  have hadded : ∀ rows, (addRows r.storage.output files rows).output.isSome
      = r.storage.output.isSome := fun rows => by cases r.storage.output <;> rfl
  cases item with
  | foreign => rfl
  | event e =>
    cases e with
    | announce a => rfl
    | blockImport b =>
      simp only [process, record]
      split <;> exact hadded _

theorem saveSnapshot_ok {path : Path} (hp : path.Named) (kind : SnapshotKind) (document : Json) :
    (saveSnapshot kind files path document).2.1 = .ok () := by
  obtain ⟨draft, hd⟩ := hp.exists_sibling Snapshot.draftEnding
  simp [saveSnapshot, Snapshot.save, hd]

theorem saveAll_ok (t : Tracker) {s : Store} (h : s.Named) (withLedger : Bool) :
    (saveAll t s files withLedger).2.1 = .ok () := by
  have hsave := saveSnapshot_ok files h.1 .nodes t.registry.toJson
  rcases hf : saveSnapshot .nodes files s.nodes t.registry.toJson with ⟨saved, done, notices⟩
  rw [hf] at hsave
  cases hsave
  cases withLedger with
  | false => simp [saveAll, hf]
  | true => simpa [saveAll, hf] using saveSnapshot_ok saved h.2 .blocks t.ledger.toJson

theorem keep_ok (t : Tracker) {store : Option Store} (h : ∀ s ∈ store, s.Named)
    (withLedger : Bool) : (keep t store files withLedger).2.1 = .ok () := by
  cases store with
  | none => rfl
  | some s => exact saveAll_ok files t (h s rfl) withLedger

theorem addRows_ok {output : Option Output} {rows : List Row}
    (h : output ≠ none → ∀ row ∈ rows, Output.fault? row.cells = none) :
    (addRows output files rows).done = .ok () := by
  cases output with
  | none => rfl
  | some o =>
    obtain ⟨n, hn⟩ := o.added_write files (rows.map Row.cells)
      (List.forall_mem_map.mpr (h (Option.some_ne_none o)))
    simp [addRows, hn, Except.map]

/-- Handling does not end early if the snapshots have names and the rows can be written. -/
theorem process_returns (hstore : ∀ s ∈ r.storage.store, s.Named)
    (hrows : r.storage.output ≠ none →
      ∀ row ∈ (r.tracker.step now item).2, Output.fault? row.cells = none) :
    (r.process files item now).rows = .ok (r.tracker.step now item).2 := by
  cases item with
  | foreign => rfl
  | event e =>
    cases e with
    | announce a => simp [process, keep_ok files _ hstore, Except.map]
    | blockImport b =>
      simp only [process, record, addRows_ok files hrows, keep_ok _ _ hstore]
      rfl

end Recorder

end AuthorWatch
