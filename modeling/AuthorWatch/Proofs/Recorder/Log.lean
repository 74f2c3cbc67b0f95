import AuthorWatch.Proofs.Csv.Reading
import AuthorWatch.Proofs.Recorder.Course
import AuthorWatch.Proofs.Recorder.Files

/-! The output as a log. A file that was missing or empty at first holds its header and then
the rows of all items, over any number of restarts, and reads back field for field. The
snapshots have to be other files: saving over the output would replace the log. -/

namespace AuthorWatch

/-- The fields of a row as they are read back; an unknown time is an empty field. -/
def Row.logged (r : Row) : List Text :=
  [Decimal.ofInt r.seen, r.name, r.nodeId, Decimal.ofInt r.height, r.hash,
    r.propagation.elim [] Decimal.ofInt]

theorem Row.toText_cells (r : Row) : r.cells.map Cell.toText = r.logged := by
  obtain ⟨seen, name, nodeId, height, hash, propagation⟩ := r
  cases propagation <;> rfl

namespace Csv

/-- The records in the file at a path. -/
def table? (files : FileTree) (path : Path) : Option (List (List Text)) :=
  ((files.content? path).bind Utf8.decode?).bind read

/-- The text of a header and rows. -/
def logText (rows : List Row) : Text := ((Row.columns :: rows.map Row.logged).map record).flatten

theorem logText_append (rows more : List Row) :
    logText (rows ++ more) = logText rows ++ ((more.map Row.cells).map ofCells).flatten := by
  have hcells : (more.map Row.cells).map ofCells = (more.map Row.logged).map record := by
    simp only [List.map_map]
    refine List.map_congr_left fun r _ => ?_
    rw [Function.comp, Function.comp, ofCells, Row.toText_cells]
  rw [hcells]
  simp [logText]

theorem read_logText (rows : List Row) :
    read (logText rows) = some (Row.columns :: rows.map Row.logged) := by
  refine read_records _ fun texts htexts => ?_
  rcases List.mem_cons.mp htexts with rfl | htexts
  · exact List.cons_ne_nil _ _
  · obtain ⟨r, -, rfl⟩ := List.mem_map.mp htexts
    exact List.cons_ne_nil _ _

end Csv

open Recorder (Plan)

/-! ### One turn -/

/-- The output is a log of the course, as long as every item was complete; and in any case
it can be opened again. -/
structure Course.Logs (first : FileTree) (output : Path) (c : Course) : Prop where
  extended : first.Extends c.session.files
  storage : ∃ store o, c.session.recorder.storage = ⟨store, some o⟩ ∧ o.path = output
    ∧ first.place output ∉ Recorder.savePlaces store first
  directories : c.session.files.Stands output.parent
  content : ∃ old, old ≠ [] ∧ c.session.files.contentAt? (first.place output) = some old
  log : (∀ o ∈ c.outcomes, o.Complete) →
    (∃ o, c.session.recorder.storage.output = some o
        ∧ o.written = (c.recent.flatMap Recorder.Outcome.returned).length)
      ∧ (Csv.logText (c.outcomes.flatMap Recorder.Outcome.returned)).encodable = true
      ∧ c.session.files.contentAt? (first.place output)
        = some (Utf8.encode (Csv.logText (c.outcomes.flatMap Recorder.Outcome.returned)))

namespace Course

variable {first : FileTree} {output : Path} {c : Course} {plan : Plan}

theorem logs_arrival (h : c.Logs first output) (a : Arrival) :
    Logs first output ⟨c.session.next a, c.outcomes ++ [c.session.apply a],
      c.recent ++ [c.session.apply a]⟩ := by
  obtain ⟨⟨⟨t, storage⟩, files⟩, outcomes, recent⟩ := c
  obtain ⟨hext, ⟨store, o, hstorage, hpath, hapart⟩, hdirs, ⟨old, hne, hold⟩, hlog⟩ := h
  dsimp only at hext hstorage hdirs hold hlog
  subst hstorage hpath
  have hplace : files.place o.path = first.place o.path := hext.place _
  rw [← hplace] at hold hlog hapart
  rw [← Recorder.savePlaces_of_extends _ _ hext] at hapart
  have htouches : files.Touches (Session.next ⟨⟨t, ⟨store, some o⟩⟩, files⟩ a).files _ :=
    Recorder.process_touches
  obtain ⟨⟨more, hmore⟩, written, hwritten⟩ :=
    Recorder.process_extends t a.item a.now hapart hold
  refine ⟨hext.trans htouches.toExtends, ⟨_, _, hwritten, rfl, ?_⟩, htouches.stands hdirs,
    ⟨old ++ more, by simp [hne], ?_⟩, fun hcomplete => ?_⟩
  · rwa [hplace, Recorder.savePlaces_of_extends _ _ hext] at hapart
  · rw [← hplace]
    exact hmore
  · obtain ⟨⟨o', ho', hcount⟩, hencodable, hcontent⟩ := hlog fun outcome houtcome =>
      hcomplete outcome (List.mem_append_left _ houtcome)
    cases ho'
    obtain ⟨hrows, hrecorder, hall, hadds⟩ := Recorder.process_adds hapart
      (hcomplete _ (List.mem_append_right _ (List.mem_singleton_self _)))
    have hreturned : (Session.apply ⟨⟨t, ⟨store, some o⟩⟩, files⟩ a).returned
        = (t.step a.now a.item).2 := by
      rw [Recorder.Outcome.returned, Session.apply, hrows]
    have htext : Csv.logText ((outcomes ++ [Session.apply ⟨⟨t, ⟨store, some o⟩⟩, files⟩ a]).flatMap
          Recorder.Outcome.returned)
        = Csv.logText (outcomes.flatMap Recorder.Outcome.returned)
          ++ (((t.step a.now a.item).2.map Row.cells).map Csv.ofCells).flatten := by
      rw [List.flatMap_append, List.flatMap_singleton, hreturned, Csv.logText_append]
    dsimp only
    rw [htext, ← hplace]
    refine ⟨⟨_, congrArg (fun r => r.storage.output) hrecorder, ?_⟩, ?_, ?_⟩
    · rw [List.flatMap_append, List.flatMap_singleton, List.length_append, hreturned, hcount]
    · rw [Text.encodable, List.all_append, List.all_flatten]
      rw [Text.encodable] at hencodable
      rw [hencodable, Bool.true_and, List.map_map, List.all_map, List.all_eq_true]
      exact fun row hrow => Output.encodable_of_fault? (hall row hrow)
    · rw [Utf8.encode_append]
      exact hadds _ hcontent

theorem logs_restart (h : c.Logs first output) (hpath : plan.output = output)
    (hapart : first.place output
      ∉ Snapshot.places first plan.nodes ++ Snapshot.places first plan.blocks) :
    ∃ s, Session.open plan c.session.files = .ok s ∧ Logs first output ⟨s, c.outcomes, []⟩ := by
  obtain ⟨hext, -, hdirs, ⟨old, hne, hold⟩, hlog⟩ := h
  subst hpath
  have hprepare : Output.prepare c.session.files plan.output Row.columns
      = (c.session.files, .ok ⟨plan.output, Row.columns, 0⟩) := by
    rw [← hext.place] at hold
    exact Output.prepare_of_content _ hdirs hold hne
  rw [Session.open_eq, hprepare]
  refine ⟨_, rfl, hext, ⟨_, _, rfl, rfl, hapart⟩, hdirs, ⟨old, hne, hold⟩, fun hcomplete => ?_⟩
  exact ⟨⟨_, rfl, rfl⟩, (hlog hcomplete).2⟩

theorem logs_start {s : Session} (h : Session.open plan first = .ok s)
    (hempty : (first.contentAt? (first.place plan.output)).getD [] = [])
    (hapart : first.place plan.output
      ∉ Snapshot.places first plan.nodes ++ Snapshot.places first plan.blocks) :
    (start s).Logs first plan.output := by
  obtain ⟨prepared, hprepare, rfl⟩ := Session.prepared_of_open h
  obtain ⟨htouches, hstands, -, hcontent⟩ := Output.prepare_spec hprepare
  rcases hcontent with ⟨old, hne, hold, -⟩ | ⟨-, hencodable, hheader⟩
  · rw [hold] at hempty
    exact absurd hempty hne
  · have htext : Csv.logText [] = Csv.record Row.columns := by simp [Csv.logText]
    refine ⟨htouches.toExtends, ⟨_, _, rfl, rfl, hapart⟩, hstands, ⟨_, ?_, hheader⟩, fun _ => ?_⟩
    · exact Utf8.encode_ne_nil (by simp [Csv.record, Text.ofString])
    · refine ⟨⟨_, rfl, rfl⟩, ?_, ?_⟩
      · exact htext ▸ hencodable
      · exact htext ▸ hheader

/-! ### Whole courses -/

theorem logs_play (h : c.Logs first output) (turns : List Turn)
    (hplans : ∀ p, .restart p ∈ turns → p.output = output
      ∧ first.place output ∉ Snapshot.places first p.nodes ++ Snapshot.places first p.blocks) :
    ∃ last, c.play turns = .ok last ∧ last.Logs first output := by
  induction turns generalizing c with
  | nil => exact ⟨c, rfl, h⟩
  | cons turn turns ih =>
    have hplans' := fun p (hp : Turn.restart p ∈ turns) => hplans p (List.mem_cons_of_mem _ hp)
    cases turn with
    | arrival a => exact ih (logs_arrival h a) hplans'
    | restart p =>
      obtain ⟨hpath, hapart⟩ := hplans p (List.mem_cons_self ..)
      obtain ⟨s, hopen, hlogs⟩ := logs_restart h hpath hapart
      obtain ⟨last, hlast, hlogs'⟩ := ih hlogs hplans'
      exact ⟨last, (play_restart hopen turns).trans hlast, hlogs'⟩

/-- An output that is no snapshot and no draft of one, and that was missing or empty at
first, can be opened again at any point. If every item was complete, it reads as its header
and the rows of all items, and the rows since the last restart were counted. -/
theorem play_logs {files : FileTree} {s : Session} (hopen : Session.open plan files = .ok s)
    (hempty : (files.contentAt? (files.place plan.output)).getD [] = []) (turns : List Turn)
    (hplans : ∀ p, p = plan ∨ .restart p ∈ turns → p.output = plan.output
      ∧ files.place plan.output ∉ Snapshot.places files p.nodes ++ Snapshot.places files p.blocks) :
    ∃ c, (start s).play turns = .ok c ∧ ((∀ o ∈ c.outcomes, o.Complete) →
      Csv.table? c.session.files plan.output
          = some (Row.columns :: (c.outcomes.flatMap Recorder.Outcome.returned).map Row.logged)
        ∧ ∃ o, c.session.recorder.storage.output = some o
          ∧ o.written = (c.recent.flatMap Recorder.Outcome.returned).length) := by
  have hstart := logs_start hopen hempty (hplans plan (.inl rfl)).2
  obtain ⟨c, hplay, hlogs⟩ := logs_play hstart turns fun p hp => hplans p (.inr hp)
  refine ⟨c, hplay, fun hcomplete => ?_⟩
  obtain ⟨hcount, hencodable, hcontent⟩ := hlogs.log hcomplete
  refine ⟨?_, hcount⟩
  rw [Csv.table?, FileTree.content?_of_leads (FileTree.leads_of_stands hlogs.directories),
    hlogs.extended.place, hcontent, Option.bind_some, Utf8.decode?_encode hencodable,
    Option.bind_some, Csv.read_logText]

/-- A node whose name holds every mark reports a block, with a restart before. -/
def markedName : List Turn :=
  [.arrival ⟨.event (.announce ⟨1, "a,\"b\"\r\n", "x"⟩), 0⟩, .restart besidePlan,
    .arrival ⟨.event (.blockImport ⟨1, 7, "h", 40⟩), 5⟩]

/-- The name is read back as it was. -/
theorem logs_markedName : ∃ s c, Session.open besidePlan .empty = .ok s
    ∧ (start s).play markedName = .ok c
    ∧ Csv.table? c.session.files besidePlan.output
      = some [Row.columns, ["5", "a,\"b\"\r\n", "x", "7", "h", "40"]]
    ∧ ∃ o, c.session.recorder.storage.output = some o ∧ o.written = 1 := by
  set s : Session :=
    ⟨⟨⟨.empty, .empty, besidePlan.policy, besidePlan.window⟩,
        ⟨some ⟨besidePlan.nodes, besidePlan.blocks⟩, some ⟨besidePlan.output, Row.columns, 0⟩⟩⟩,
      (Output.prepare .empty besidePlan.output Row.columns).1⟩ with hs
  have hopen : Session.open besidePlan .empty = .ok s := rfl
  obtain ⟨c, hplay, hlog⟩ := play_logs hopen rfl markedName (by
    intro p hp
    have hbeside : p = besidePlan := by simpa [markedName] using hp
    subst hbeside
    exact ⟨rfl, by decide +kernel⟩)
  have hrun : ((start s).play markedName).map (fun c =>
        (decide (∀ o ∈ c.outcomes, o.Complete), c.outcomes.flatMap Recorder.Outcome.returned,
          (c.recent.flatMap Recorder.Outcome.returned).length))
      = .ok (true, [⟨5, "a,\"b\"\r\n", "x", 7, "h", some 40⟩], 1) := by
    rw [hs]
    decide +kernel
  rw [hplay] at hrun
  have hrun' := Except.ok.inj hrun
  simp only [Prod.mk.injEq, decide_eq_true_eq] at hrun'
  obtain ⟨hcomplete, hrows, hcount⟩ := hrun'
  obtain ⟨htable, o, houtput, hwritten⟩ := hlog hcomplete
  refine ⟨s, c, hopen, hplay, ?_, o, houtput, hwritten.trans hcount⟩
  rw [htable, hrows]
  decide +kernel

/-- The output in the place of the snapshot of the nodes. -/
def sharedPlan : Plan := { besidePlan with nodes := besidePlan.output }

/-- An announcement then puts the registry where the log was, and nothing fails. -/
theorem log_lost_of_sharedPlan : ∃ s c, Session.open sharedPlan .empty = .ok s
    ∧ FileTree.empty.contentAt? (FileTree.empty.place sharedPlan.output) = none
    ∧ (start s).play [.arrival ⟨.event (.announce ⟨1, "a", "n"⟩), 0⟩] = .ok c
    ∧ (∀ o ∈ c.outcomes, o.Complete)
    ∧ Csv.table? c.session.files sharedPlan.output
      ≠ some (Row.columns :: (c.outcomes.flatMap Recorder.Outcome.returned).map Row.logged) :=
  ⟨_, _, rfl, rfl, rfl, by decide +kernel, by decide +kernel⟩

end Course

end AuthorWatch
