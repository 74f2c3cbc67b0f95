import AuthorWatch.Proofs.Ledger.Eviction
import AuthorWatch.Proofs.Recorder.Course
import AuthorWatch.Proofs.Recorder.Files

/-! Items that leave no trace: imports that are not accepted, and what is no event at all. A run
goes on as it would without them. They do save the snapshots, so this needs an output that is
none of the files that a save writes. -/

namespace AuthorWatch

/-- An import that names no block or knows no propagation time, or no event at all. -/
def Item.Inert : Item → Prop
  | .event (.blockImport b) => b.hash = [] ∨ b.propagation = 0
  | .event (.announce _) => False
  | .foreign => True

instance (item : Item) : Decidable item.Inert := by
  unfold Item.Inert
  split <;> infer_instance

/-- A ledger that fits its window is left as it is, and no rows come out. -/
theorem Tracker.step_of_inert {t : Tracker} (ht : t.Trimmed) (now : Int) {item : Item}
    (h : item.Inert) : t.step now item = (t, []) := by
  cases item with
  | foreign => rfl
  | event e =>
    cases e with
    | announce a => exact h.elim
    | blockImport b =>
      have hb : Ledger.accepts b = false := by
        rcases h with hhash | htime
        · simp [Ledger.accepts, hhash]
        · simp [Ledger.accepts, htime]
      have hsize : t.ledger.enforce t.window = t.ledger := Ledger.enforce_of_size_le ht
      simp only [step, importBlock, Ledger.handle, hb, Bool.false_eq_true, if_false, hsize]

/-! ### The output while the snapshots are saved -/

/-- The output file is found with this content, and no save writes to it. -/
structure Output.Holds (o : Output) (store : Option Store) (files : FileTree) (log : List UInt8) :
    Prop where
  content : files.content? o.path = some log
  apart : files.place o.path ∉ Recorder.savePlaces store files

/-- The output is found with the same content in both trees, and no save writes to it. -/
def Storage.SameLog (s : Storage) (files₁ files₂ : FileTree) : Prop :=
  ∀ o ∈ s.output, ∃ log, o.Holds s.store files₁ log ∧ o.Holds s.store files₂ log

/-- Rows that come to a file that is there: what becomes of them hangs on the rows alone. -/
theorem Output.write_of_content (o : Output) {files : FileTree} {old : List UInt8}
    (h : files.content? o.path = some old) (rows : List (List Cell)) :
    let fault := rows.findSome? fault?
    (o.write files rows).added = fault.elim (.ok rows.length) .error
    ∧ (o.write files rows).output
      = { o with written := o.written + fault.elim rows.length fun _ => 0 }
    ∧ (o.write files rows).files.content? o.path = some (old ++ bytes (sound rows)) := by
  intro fault
  by_cases hr : rows = []
  · subst hr
    refine ⟨rfl, rfl, ?_⟩
    rw [write_nil, h]
    simp
  · obtain ⟨hleads, hold⟩ := FileTree.content?_eq_some_iff.mp h
    obtain ⟨added, hadded⟩ := (FileTree.exists_append_iff _).mpr
      (⟨hleads, .inl ⟨old, hold⟩⟩ : files.Openable o.path)
    have hadd : add files o.path rows = .ok added := hadded
    have hcontent : added.content? o.path = some (old ++ bytes (sound rows)) := by
      obtain ⟨htouches, hnew⟩ := add_spec hadd
      refine FileTree.content?_eq_some_iff.mpr ⟨hleads.of_extends htouches.toExtends, ?_⟩
      rw [htouches.place, hnew, hold]
      rfl
    rcases o.write_cases files rows hr with
      ⟨e, hfailed, -⟩ | ⟨added', hadd', hall, hw⟩ | ⟨added', f, hadd', hf, hw⟩
    · cases hadd.symm.trans hfailed
    · cases hadd.symm.trans hadd'
      have hnone : fault = none := List.findSome?_eq_none_iff.mpr hall
      rw [hw, hnone]
      exact ⟨rfl, rfl, hcontent⟩
    · cases hadd.symm.trans hadd'
      have hsome : fault = some f := hf
      rw [hw, hsome]
      exact ⟨rfl, rfl, hcontent⟩

theorem Output.Holds.of_touches {o : Output} {store : Option Store} {files later : FileTree}
    {log log' : List UInt8} {places : List Place} (h : o.Holds store files log)
    (ht : files.Touches later places) (hlog : later.content? o.path = some log') :
    o.Holds store later log' := by
  refine ⟨hlog, ?_⟩
  rw [ht.place, Recorder.savePlaces_of_extends _ _ ht.toExtends]
  exact h.apart

namespace Recorder

/-- Whether a save ends the handling early hangs on its path alone. -/
theorem done_saveSnapshot (kind : SnapshotKind) (files₁ files₂ : FileTree) (path : Path)
    (document : Json) : (saveSnapshot kind files₁ path document).2.1
      = (saveSnapshot kind files₂ path document).2.1 := by
  unfold saveSnapshot Snapshot.save
  cases path.sibling? Snapshot.draftEnding <;> rfl

theorem done_saveAll (t : Tracker) (s : Store) (files₁ files₂ : FileTree) (withLedger : Bool) :
    (saveAll t s files₁ withLedger).2.1 = (saveAll t s files₂ withLedger).2.1 := by
  have hnodes := done_saveSnapshot .nodes files₁ files₂ s.nodes t.registry.toJson
  unfold saveAll
  rcases hs₁ : saveSnapshot .nodes files₁ s.nodes t.registry.toJson with ⟨saved₁, done₁, notices₁⟩
  rcases hs₂ : saveSnapshot .nodes files₂ s.nodes t.registry.toJson with ⟨saved₂, done₂, notices₂⟩
  rw [hs₁, hs₂] at hnodes
  cases hnodes
  cases done₁ with
  | error f => rfl
  | ok _ =>
    cases withLedger with
    | false => rfl
    | true => exact done_saveSnapshot ..

theorem done_keep (t : Tracker) (store : Option Store) (files₁ files₂ : FileTree)
    (withLedger : Bool) :
    (keep t store files₁ withLedger).2.1 = (keep t store files₂ withLedger).2.1 := by
  cases store with
  | none => rfl
  | some s => exact done_saveAll t s files₁ files₂ withLedger

variable {t : Tracker} {s : Storage} {o : Output} {files files₁ files₂ : FileTree}
  {log : List UInt8}

theorem holds_keep (h : o.Holds s.store files log) (t : Tracker) (withLedger : Bool) :
    o.Holds s.store (keep t s.store files withLedger).1 log := by
  have htouches := keep_touches t s.store files withLedger
  exact h.of_touches htouches (htouches.content?_eq_some h.apart h.content)

theorem sameLog_keep (h : s.SameLog files₁ files₂) (t : Tracker) (withLedger : Bool) :
    s.SameLog (keep t s.store files₁ withLedger).1 (keep t s.store files₂ withLedger).1 := by
  intro o ho
  obtain ⟨log, h₁, h₂⟩ := h o ho
  exact ⟨log, holds_keep h₁ t withLedger, holds_keep h₂ t withLedger⟩

/-- How adding rows comes out hangs on the rows, and the logs stay the same. -/
theorem addRows_congr (h : s.SameLog files₁ files₂) (rows : List Row) :
    (addRows s.output files₁ rows).done = (addRows s.output files₂ rows).done
    ∧ (addRows s.output files₁ rows).output = (addRows s.output files₂ rows).output
    ∧ Storage.SameLog { s with output := (addRows s.output files₁ rows).output }
      (addRows s.output files₁ rows).files (addRows s.output files₂ rows).files := by
  obtain ⟨store, output⟩ := s
  cases output with
  | none => exact ⟨rfl, rfl, fun o ho => nomatch ho⟩
  | some o =>
    obtain ⟨log, h₁, h₂⟩ := h o rfl
    obtain ⟨hadded₁, houtput₁, hcontent₁⟩ := o.write_of_content h₁.content (rows.map Row.cells)
    obtain ⟨hadded₂, houtput₂, hcontent₂⟩ := o.write_of_content h₂.content (rows.map Row.cells)
    refine ⟨congrArg (Except.map fun _ => ()) (hadded₁.trans hadded₂.symm),
      congrArg some (houtput₁.trans houtput₂.symm), fun later hlater => ?_⟩
    have heq : later = (o.write files₁ (rows.map Row.cells)).output :=
      (Option.some.inj hlater).symm
    rw [heq, houtput₁]
    obtain ⟨hfound₁, hapart₁⟩ := h₁.of_touches (o.write_touches files₁ _) hcontent₁
    obtain ⟨hfound₂, hapart₂⟩ := h₂.of_touches (o.write_touches files₂ _) hcontent₂
    exact ⟨_, ⟨hfound₁, hapart₁⟩, hfound₂, hapart₂⟩

/-- With the same log an item comes out the same, and the logs stay the same. -/
theorem process_congr (h : s.SameLog files₁ files₂) (item : Item) (now : Int) :
    let o₁ := process ⟨t, s⟩ files₁ item now
    let o₂ := process ⟨t, s⟩ files₂ item now
    o₁.rows = o₂.rows ∧ o₁.recorder = o₂.recorder
    ∧ o₁.recorder.storage.SameLog o₁.files o₂.files := by
  intro o₁ o₂
  cases item with
  | foreign => exact ⟨rfl, rfl, h⟩
  | event e =>
    cases e with
    | announce a =>
      have hdone := done_keep (t.step now (.event (.announce a))).1 s.store files₁ files₂ false
      exact ⟨congrArg (Except.map fun _ => []) hdone, rfl, sameLog_keep h _ false⟩
    | blockImport b =>
      obtain ⟨hdone, houtput, hlog⟩ := addRows_congr h (t.step now (.event (.blockImport b))).2
      rcases hadded : (addedBy t files₁ s b now).done with f | _
      · have ho₁ : o₁ = _ := process_import_error t files₁ s hadded
        have ho₂ : o₂ = _ := process_import_error t files₂ s (hdone.symm.trans hadded)
        rw [ho₁, ho₂]
        exact ⟨rfl, congrArg (fun output => Recorder.mk _ (Storage.mk _ output)) houtput, hlog⟩
      · have ho₁ : o₁ = _ := process_import_ok t files₁ s hadded
        have ho₂ : o₂ = _ := process_import_ok t files₂ s (hdone.symm.trans hadded)
        rw [ho₁, ho₂]
        refine ⟨?_, congrArg (fun output => Recorder.mk _ (Storage.mk _ output)) houtput,
          sameLog_keep hlog _ true⟩
        exact congrArg (Except.map fun _ => _) (done_keep _ s.store _ _ true)

/-- An import that brings no rows and leaves the tracker as it is leaves the log too. -/
theorem process_import_of_still {b : BlockImport} {now : Int}
    (hstep : t.step now (.event (.blockImport b)) = (t, [])) (h : s.SameLog files₁ files₂) :
    (process ⟨t, s⟩ files₁ (.event (.blockImport b)) now).recorder = ⟨t, s⟩
      ∧ s.SameLog (process ⟨t, s⟩ files₁ (.event (.blockImport b)) now).files files₂ := by
  have hadded : addedBy t files₁ s b now = ⟨s.output, files₁, .ok (), []⟩ := by
    rw [addedBy, hstep]
    cases s.output <;> rfl
  have hsaved : savedBy t files₁ s b now = keep t s.store files₁ true := by
    rw [savedBy, hadded, hstep]
  rw [process_import_ok t files₁ s (by rw [hadded]), hadded, hsaved, hstep]
  refine ⟨rfl, fun o ho => ?_⟩
  obtain ⟨log, h₁, h₂⟩ := h o ho
  exact ⟨log, holds_keep h₁ t true, h₂⟩

end Recorder

/-! ### Runs with and without inert items -/

namespace Session

/-- Two sessions that may differ in files other than the output. -/
structure Agrees (s₁ s₂ : Session) : Prop where
  recorder : s₁.recorder = s₂.recorder
  trimmed : s₁.recorder.tracker.Trimmed
  log : s₁.recorder.storage.SameLog s₁.files s₂.files

variable {s₁ s₂ : Session} {a : Arrival}

theorem Agrees.apply (h : s₁.Agrees s₂) (a : Arrival) :
    (s₁.apply a).rows = (s₂.apply a).rows ∧ (s₁.next a).Agrees (s₂.next a) := by
  obtain ⟨⟨t, storage⟩, files₁⟩ := s₁
  obtain ⟨⟨t₂, storage₂⟩, files₂⟩ := s₂
  obtain ⟨hrecorder, htrimmed, hlog⟩ := h
  cases hrecorder
  obtain ⟨hrows, hnext, hlog'⟩ := Recorder.process_congr (t := t) hlog a.item a.now
  refine ⟨hrows, hnext, ?_, hlog'⟩
  rw [tracker_next]
  exact Tracker.trimmed_step htrimmed

/-- An inert item on one side alone. -/
theorem Agrees.next_inert (h : s₁.Agrees s₂) (ha : a.item.Inert) : (s₁.next a).Agrees s₂ := by
  obtain ⟨⟨t, storage⟩, files₁⟩ := s₁
  obtain ⟨hrecorder, htrimmed, hlog⟩ := h
  have hstep := Tracker.step_of_inert htrimmed a.now ha
  obtain ⟨item, now⟩ := a
  cases item with
  | foreign => exact ⟨hrecorder, htrimmed, hlog⟩
  | event e =>
    cases e with
    | announce _ => exact ha.elim
    | blockImport b =>
      obtain ⟨hsame, hlog'⟩ := Recorder.process_import_of_still hstep hlog
      have hnext : (Session.next ⟨⟨t, storage⟩, files₁⟩ ⟨.event (.blockImport b), now⟩).recorder
          = ⟨t, storage⟩ := hsame
      refine ⟨hnext.trans hrecorder, ?_, ?_⟩
      · rw [hnext]
        exact htrimmed
      · rw [hnext]
        exact hlog'

/-- A run with the arrivals that bear no mark, and the run without them. -/
theorem Agrees.after (h : s₁.Agrees s₂) {marked : List (Arrival × Bool)}
    (hmarked : ∀ m ∈ marked, m.2 = false → m.1.item.Inert) :
    (s₁.after (marked.map Prod.fst)).Agrees
      (s₂.after ((marked.filter Prod.snd).map Prod.fst)) := by
  induction marked generalizing s₁ s₂ with
  | nil => exact h
  | cons m marked ih =>
    obtain ⟨a, mark⟩ := m
    have hrest := fun m hm => hmarked m (List.mem_cons_of_mem _ hm)
    cases mark with
    | true => exact ih (h.apply a).2 hrest
    | false => exact ih (h.next_inert (hmarked _ List.mem_cons_self rfl)) hrest

/-- A recorder that was opened holds its log, if no snapshot and no draft is in its place. -/
theorem holds_of_open {plan : Recorder.Plan} {files : FileTree} {s : Session}
    (h : Session.open plan files = .ok s)
    (hapart : files.place plan.output
      ∉ Snapshot.places files plan.nodes ++ Snapshot.places files plan.blocks) :
    ∀ o ∈ s.recorder.storage.output, ∃ log, o.Holds s.recorder.storage.store s.files log := by
  obtain ⟨prepared, hprepare, rfl⟩ := Session.prepared_of_open h
  obtain ⟨htouches, hstands, -, hcontent⟩ := Output.prepare_spec hprepare
  obtain ⟨log, hlog⟩ : ∃ log, prepared.contentAt? (files.place plan.output) = some log := by
    rcases hcontent with ⟨old, -, -, hold⟩ | ⟨-, -, hheader⟩
    · exact ⟨old, hold⟩
    · exact ⟨_, hheader⟩
  rintro o ⟨⟩
  refine ⟨log, ?_, ?_⟩
  · rwa [FileTree.content?_of_leads (FileTree.leads_of_stands hstands), htouches.place]
  · rwa [htouches.place, Recorder.savePlaces_of_extends _ _ htouches.toExtends]

end Session

namespace Recorder

/-- A recorder over any registry and ledger that were restored, with an output that no save
writes to. Of a run, any arrivals without a mark are left out that are inert. After the others,
and after any arrival that comes next, everything is as in the whole run: the rows, the registry
and the ledger, the number of rows written, and the content of the output. An inert arrival gives
back no rows, if the snapshots have names. -/
theorem rejected_leave_no_trace (registry : Registry) (ledger : Ledger) (policy : Policy)
    (window : Window) (storage : Storage) (files : FileTree)
    (hlog : ∀ o ∈ storage.output, ∃ log, o.Holds storage.store files log)
    (marked : List (Arrival × Bool)) (hmarked : ∀ m ∈ marked, m.2 = false → m.1.item.Inert)
    (a : Arrival) :
    let start : Session := ⟨⟨.ofRestored registry ledger policy window, storage⟩, files⟩
    let whole := start.after (marked.map Prod.fst)
    let thinned := start.after ((marked.filter Prod.snd).map Prod.fst)
    (whole.apply a).rows = (thinned.apply a).rows
    ∧ (whole.next a).recorder = (thinned.next a).recorder
    ∧ (∀ o ∈ (whole.next a).recorder.storage.output,
      ∃ log, (whole.next a).files.read o.path = .ok log
        ∧ (thinned.next a).files.read o.path = .ok log)
    ∧ (a.item.Inert → (∀ store ∈ whole.recorder.storage.store, store.Named) →
      (whole.apply a).rows = .ok []) := by
  intro start whole thinned
  have hstart : start.Agrees start := by
    refine ⟨rfl, Tracker.trimmed_ofRestored .., fun o ho => ?_⟩
    obtain ⟨log, h⟩ := hlog o ho
    exact ⟨log, h, h⟩
  have hagrees : whole.Agrees thinned := hstart.after hmarked
  obtain ⟨hrows, hnext⟩ := hagrees.apply a
  refine ⟨hrows, hnext.recorder, fun o ho => ?_, fun hinert hnamed => ?_⟩
  · obtain ⟨log, h₁, h₂⟩ := hnext.log o ho
    exact ⟨log, FileTree.read_eq_ok_iff.mpr h₁.content, FileTree.read_eq_ok_iff.mpr h₂.content⟩
  · have hstep := Tracker.step_of_inert hagrees.trimmed a.now hinert
    have hreturns := whole.recorder.process_returns whole.files a.item a.now hnamed
      (by simp [hstep])
    rw [hstep] at hreturns
    exact hreturns

/-- An import without a hash, at a time when the first record would be old enough. -/
def rejectedImport : Arrival := ⟨.event (.blockImport ⟨1, 9, [], 5⟩), 20⟩

/-- Among a node and its block come two imports that are not accepted, and no event. -/
def mixedArrivals : List (Arrival × Bool) :=
  [(rejectedImport, false), (⟨.event (.announce ⟨1, "n", "i"⟩), 0⟩, true), (⟨.foreign, 3⟩, false),
    (⟨.event (.blockImport ⟨1, 10, "d", 5⟩), 1⟩, true),
    (⟨.event (.blockImport ⟨2, 99, "e", 0⟩), 9⟩, false)]

/-- Two records, one more than the window holds. -/
def heldBlocks : Ledger :=
  .ofPairs [("a", ⟨5, 0, some 4, [], 1, false⟩), ("b", ⟨7, 0, some 4, [], 1, false⟩)]

/-- A recorder over them, with an output that has its header. -/
def crowded : Session where
  recorder := ⟨.ofRestored .empty heldBlocks besidePlan.policy besidePlan.window,
    ⟨some ⟨besidePlan.nodes, besidePlan.blocks⟩, some ⟨besidePlan.output, Row.columns, 0⟩⟩⟩
  files := (Output.prepare .empty besidePlan.output Row.columns).1

/-- The row of a last block comes out as it would without what was rejected, and the log has the
same content. -/
theorem traceless_of_mixedArrivals :
    let whole := crowded.after (mixedArrivals.map Prod.fst)
    let thinned := crowded.after ((mixedArrivals.filter Prod.snd).map Prod.fst)
    let last : Arrival := ⟨.event (.blockImport ⟨2, 11, "f", 5⟩), 2⟩
    (whole.apply rejectedImport).rows = .ok []
    ∧ (whole.apply last).rows = .ok [⟨2, "unknown_node_2", "unknown_id", 11, "f", some 5⟩]
    ∧ (whole.next last).recorder.tracker.ledger.keys = ["f"]
    ∧ ∃ log, (whole.next last).files.read besidePlan.output = .ok log
      ∧ (thinned.next last).files.read besidePlan.output = .ok log := by
  intro whole thinned last
  have hopen : Session.open besidePlan .empty = .ok ⟨⟨.ofRestored .empty .empty besidePlan.policy
      besidePlan.window, crowded.recorder.storage⟩, crowded.files⟩ := rfl
  have hheld := Session.holds_of_open hopen (by decide +kernel)
  have hlog : ∀ o ∈ crowded.recorder.storage.output,
      ∃ log, o.Holds crowded.recorder.storage.store crowded.files log := hheld
  have hmarked : ∀ m ∈ mixedArrivals, m.2 = false → m.1.item.Inert := by decide +kernel
  obtain ⟨hrows, hrecorder, hread, -⟩ := rejected_leave_no_trace .empty heldBlocks besidePlan.policy
    besidePlan.window crowded.recorder.storage crowded.files hlog mixedArrivals hmarked last
  obtain ⟨-, -, -, hinert⟩ := rejected_leave_no_trace .empty heldBlocks besidePlan.policy
    besidePlan.window crowded.recorder.storage crowded.files hlog mixedArrivals hmarked
    rejectedImport
  have hpaths : whole.recorder.storage.store = some ⟨besidePlan.nodes, besidePlan.blocks⟩ := by
    decide +kernel
  have houtput : (thinned.next last).recorder.storage.output
      = some ⟨besidePlan.output, Row.columns, 2⟩ := by
    decide +kernel
  have hkeys : (thinned.next last).recorder.tracker.ledger.keys = ["f"] := by decide +kernel
  refine ⟨hinert (by decide) fun store h => ?_, hrows.trans (by decide +kernel),
    (congrArg (fun r => r.tracker.ledger.keys) hrecorder).trans hkeys,
    hread _ (Eq.trans (congrArg (fun r => r.storage.output) hrecorder) houtput)⟩
  cases hpaths.symm.trans h
  exact ⟨nofun, nofun⟩

/-- The output is where the draft of the nodes goes, and a directory for the blocks is to be made
in the same place. -/
def crossedPlan : Plan :=
  { besidePlan with output := ⟨false, ["nodes.tmp"]⟩, blocks := ⟨false, ["nodes.tmp", "blocks"]⟩ }

/-- An import that is rejected then moves the output away, and a row that would be added to it is
lost. -/
theorem row_lost_after_rejectedImport : ∃ s, Session.open crossedPlan .empty = .ok s
    ∧ rejectedImport.item.Inert
    ∧ let a : Arrival := ⟨.event (.blockImport ⟨1, 10, "a", 5⟩), 21⟩
      (s.apply a).recorder.storage.output.map Output.written = some 1
      ∧ ((s.next rejectedImport).apply a).recorder.storage.output.map Output.written = some 0
      ∧ .outputNotWritten 1 ∈ ((s.next rejectedImport).apply a).notices :=
  ⟨_, rfl, by decide, by decide +kernel, by decide +kernel, by decide +kernel⟩

end Recorder

end AuthorWatch
