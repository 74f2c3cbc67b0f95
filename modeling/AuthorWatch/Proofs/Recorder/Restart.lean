import AuthorWatch.Proofs.Ledger.Retention
import AuthorWatch.Proofs.Ledger.Sound
import AuthorWatch.Proofs.Recorder.Course
import AuthorWatch.Proofs.Recorder.Files
import Mathlib.Data.Nat.Init

/-! Throwing a recorder away between two items and opening it anew changes nothing. After
each item the files restore what is in memory, and the output has its header, so a
restart leaves the files as they are and only forgets how many rows were written. -/

namespace AuthorWatch

namespace Recorder

namespace Plan

def storage (plan : Plan) (written : ℕ) : Storage :=
  ⟨some ⟨plan.nodes, plan.blocks⟩, some ⟨plan.output, Row.columns, written⟩⟩

/-- The output, the snapshots and their drafts are different files. -/
def Apart (plan : Plan) (files : FileTree) : Prop :=
  (files.place plan.output
    :: (Snapshot.places files plan.nodes ++ Snapshot.places files plan.blocks)).Nodup

variable {plan : Plan} {files later : FileTree}

instance : Decidable (plan.Apart files) := inferInstanceAs (Decidable (List.Nodup _))

/-- The paths of both snapshots are settled. -/
def Settled (plan : Plan) (files : FileTree) : Prop :=
  files.Settled plan.nodes ∧ files.Settled plan.blocks

instance : Decidable (plan.Settled files) := inferInstanceAs (Decidable (_ ∧ _))

theorem apart_of_extends (h : plan.Apart files) (hext : files.Extends later) :
    plan.Apart later := by
  rw [Apart, hext.place, Snapshot.places_of_extends hext, Snapshot.places_of_extends hext]
  exact h

theorem output_not_mem (h : plan.Apart files) : files.place plan.output
    ∉ Snapshot.places files plan.nodes ++ Snapshot.places files plan.blocks :=
  (List.nodup_cons.mp h).1

theorem nodes_not_mem (h : plan.Apart files) :
    files.place plan.nodes ∉ Snapshot.places files plan.blocks := by
  have hd := (List.nodup_append.mp (List.nodup_cons.mp h).2).2.2
  exact fun hm => hd _ (List.mem_cons_self ..) _ hm rfl

theorem blocks_not_mem (h : plan.Apart files) :
    files.place plan.blocks ∉ Snapshot.places files plan.nodes := by
  have hd := (List.nodup_append.mp (List.nodup_cons.mp h).2).2.2
  exact fun hm => hd _ hm _ (List.mem_cons_self ..) rfl

end Plan

/-- A recorder that has counted no rows yet. -/
def reopened (r : Recorder) : Recorder :=
  { r with storage :=
    { r.storage with output := r.storage.output.map fun o => { o with written := 0 } } }

/-- What is in memory is what a restart would restore from the files. -/
structure Kept (plan : Plan) (s : Session) : Prop where
  storage : ∃ written, s.recorder.storage = plan.storage written
  policy : s.recorder.tracker.policy = plan.policy
  window : s.recorder.tracker.window = plan.window
  apart : plan.Apart s.files
  settled : plan.Settled s.files
  registry : Snapshot.held Node.ofJson s.files plan.nodes = s.recorder.tracker.registry
  ledger : Ledger.enforce (Snapshot.held Record.ofJson s.files plan.blocks) plan.window
    = s.recorder.tracker.ledger
  sound : ∀ entry ∈ s.recorder.tracker.ledger.entries, entry.2.Sound
  directories : s.files.Stands plan.output.parent
  header : ∃ content, content ≠ [] ∧ s.files.contentAt? (s.files.place plan.output) = some content

/-! ### Opening -/

variable {plan : Plan} {files : FileTree} {s : Session}

theorem sound_held : ∀ entry ∈ (Snapshot.held Record.ofJson files plan.blocks).entries,
    entry.2.Sound := by
  intro entry hentry
  obtain ⟨v, hv⟩ := Snapshot.exists_of_held entry hentry
  exact Record.sound_of_ofJson hv

theorem kept_of_open (h : Session.open plan files = .ok s) (hapart : plan.Apart files)
    (hsettled : plan.Settled files) : Kept plan s := by
  obtain ⟨prepared, hprepare, rfl⟩ := Session.prepared_of_open h
  obtain ⟨htouches, hstands, -, hcontent⟩ := Output.prepare_spec hprepare
  have hnot : ∀ {path : Path}, files.place path
        ∈ Snapshot.places files plan.nodes ++ Snapshot.places files plan.blocks →
      files.place path ∉ [files.place plan.output] := by
    intro path hpath hm
    rw [List.mem_singleton.mp hm] at hpath
    exact Plan.output_not_mem hapart hpath
  have hnodes : files.place plan.nodes ∉ [files.place plan.output] :=
    hnot (List.mem_append_left _ (List.mem_cons_self ..))
  have hblocks : files.place plan.blocks ∉ [files.place plan.output] :=
    hnot (List.mem_append_right _ (List.mem_cons_self ..))
  have hheld : ∀ {path : Path}, files.Settled path →
      files.place path ∉ [files.place plan.output] →
      prepared.content? path = files.content? path := fun hs hp =>
    hs.content?_eq htouches.toExtends (htouches.content _ hp)
  refine ⟨⟨0, rfl⟩, rfl, rfl, Plan.apart_of_extends hapart htouches.toExtends,
    ⟨hsettled.1.of_touches htouches hnodes, hsettled.2.of_touches htouches hblocks⟩,
    Snapshot.held_of_content (hheld hsettled.1 hnodes), ?_, ?_, hstands, ?_⟩
  · rw [Snapshot.held_of_content (hheld hsettled.2 hblocks)]
  · intro entry hentry
    exact sound_held entry (List.mem_of_mem_filter hentry)
  · rw [htouches.place]
    rcases hcontent with ⟨old, hne, -, hold⟩ | ⟨-, -, hheader⟩
    · exact ⟨old, hne, hold⟩
    · exact ⟨_, Utf8.encode_ne_nil (by simp [Csv.record, Text.ofString]), hheader⟩

/-- Opening a recorder on the files of another gives that recorder, with no rows counted,
and changes no file. -/
theorem open_of_kept (h : Kept plan s) :
    Session.open plan s.files = .ok ⟨s.recorder.reopened, s.files⟩ := by
  obtain ⟨content, hne, hcontent⟩ := h.header
  obtain ⟨written, hstorage⟩ := h.storage
  rw [Session.open_eq, Output.prepare_of_content s.files h.directories hcontent hne, h.registry,
    h.ledger, ← h.policy, ← h.window, reopened, hstorage]
  rfl

/-! ### One item -/

theorem held_of_stored_registry {path : Path} {r : Registry} (h : Stored files path r.toJson) :
    Snapshot.held Node.ofJson files path = r := by
  rw [Snapshot.held, h.2, Option.bind_some, Snapshot.ofBytes_registry (Json.encodable_write h.1)]
  rfl

theorem held_of_stored_ledger {path : Path} {l : Ledger} (h : Stored files path l.toJson)
    (hs : ∀ entry ∈ l.entries, entry.2.Sound) (hf : ∀ entry ∈ l.entries, entry.2.Fits) :
    Snapshot.held Record.ofJson files path = l := by
  rw [Snapshot.held, h.2, Option.bind_some,
    Snapshot.ofBytes_ledger hs hf (Json.encodable_write h.1)]
  rfl

variable {t : Tracker} {written : ℕ} {item : Item} {now : Int}

variable (plan files t written) in
/-- An announcement changes the snapshot of the nodes and its draft only. -/
theorem announce_touches (a : Announce) (now : Int) : files.Touches
    (process ⟨t, plan.storage written⟩ files (.event (.announce a)) now).files
    (Snapshot.places files plan.nodes) := by
  rw [process_announce, Plan.storage, keep_false]
  exact saveSnapshot_touches ..

/-- A complete item leaves its registry in the snapshot of the nodes. -/
theorem held_registry_process (hapart : plan.Apart files)
    (hc : (process ⟨t, plan.storage written⟩ files item now).Complete)
    (h : Snapshot.held Node.ofJson files plan.nodes = t.registry) :
    Snapshot.held Node.ofJson (process ⟨t, plan.storage written⟩ files item now).files
      plan.nodes = (t.step now item).1.registry := by
  cases item with
  | foreign => exact h
  | event e =>
    cases e with
    | announce a => exact held_of_stored_registry (stored_announce rfl hc)
    | blockImport b =>
      exact held_of_stored_registry (stored_import rfl (Plan.nodes_not_mem hapart) hc).1

/-- A complete item leaves its ledger in the snapshot of the blocks, or a larger one that
the window cuts to its ledger. -/
theorem held_ledger_process (hapart : plan.Apart files) (hsettled : files.Settled plan.blocks)
    (hc : (process ⟨t, plan.storage written⟩ files item now).Complete)
    (h : Ledger.enforce (Snapshot.held Record.ofJson files plan.blocks) t.window = t.ledger)
    (hs : ∀ entry ∈ (t.step now item).1.ledger.entries, entry.2.Sound)
    (hf : ∀ entry ∈ (t.step now item).1.ledger.entries, entry.2.Fits) :
    Ledger.enforce (Snapshot.held Record.ofJson
        (process ⟨t, plan.storage written⟩ files item now).files plan.blocks) t.window
      = (t.step now item).1.ledger := by
  cases item with
  | foreign => exact h
  | event e =>
    cases e with
    | announce a =>
      have htouches := announce_touches plan files t written a now
      have hcontent := hsettled.content?_eq htouches.toExtends
        (htouches.content _ (Plan.blocks_not_mem hapart))
      rw [Snapshot.held_of_content hcontent]
      exact h
    | blockImport b =>
      have hheld := held_of_stored_ledger (stored_import rfl (Plan.nodes_not_mem hapart) hc).2 hs hf
      exact (congrArg (Ledger.enforce · t.window) hheld).trans (Ledger.enforce_enforce ..)

/-- A saved snapshot can be found, and the save of one leaves the path of the other settled. -/
theorem settled_process (hapart : plan.Apart files)
    (hc : (process ⟨t, plan.storage written⟩ files item now).Complete)
    (h : plan.Settled files) :
    plan.Settled (process ⟨t, plan.storage written⟩ files item now).files := by
  have hfound : ∀ {later : FileTree} {path : Path} {document : Json},
      Stored later path document → later.Settled path := fun hs =>
    .inl (FileTree.content?_eq_some_iff.mp hs.2).1
  cases item with
  | foreign => exact h
  | event e =>
    cases e with
    | announce a =>
      have hblocks := h.2.of_touches (announce_touches plan files t written a now)
        (Plan.blocks_not_mem hapart)
      exact ⟨hfound (stored_announce rfl hc), hblocks⟩
    | blockImport b =>
      obtain ⟨hnodes, hblocks⟩ := stored_import rfl (Plan.nodes_not_mem hapart) hc
      exact ⟨hfound hnodes, hfound hblocks⟩

/-- A complete item keeps what is in memory and what the files would restore in step. -/
theorem kept_next (h : Kept plan s) {a : Arrival} (ha : a.item.Checked)
    (hc : (s.apply a).Complete)
    (hf : ∀ entry ∈ (s.next a).recorder.tracker.ledger.entries, entry.2.Fits) :
    Kept plan (s.next a) := by
  obtain ⟨⟨t, storage⟩, files⟩ := s
  obtain ⟨⟨written, hstorage⟩, hpolicy, hwindow, hapart, hsettled, hregistry, hledger, hsound,
    hdirs, content, hne, hcontent⟩ := h
  dsimp only at hstorage hpolicy hwindow hapart hsettled hregistry hledger hsound hdirs hcontent
  subst hstorage
  have htouches : files.Touches
      (Session.next ⟨⟨t, plan.storage written⟩, files⟩ a).files _ := process_touches
  obtain ⟨-, hrecorder, -, hadds⟩ := process_adds (Plan.output_not_mem hapart) hc
  have htracker : (Session.next ⟨⟨t, plan.storage written⟩, files⟩ a).recorder.tracker
      = (t.step a.now a.item).1 := Session.tracker_next _ a
  rw [htracker] at hf
  have hsound' : ∀ entry ∈ (t.step a.now a.item).1.ledger.entries, entry.2.Sound :=
    Tracker.sound_step hsound ha
  refine ⟨⟨_, congrArg Recorder.storage hrecorder⟩, ?_, ?_,
    Plan.apart_of_extends hapart htouches.toExtends, settled_process hapart hc hsettled, ?_, ?_, ?_,
    htouches.stands hdirs, ?_⟩
  · rw [htracker, Tracker.policy_step, hpolicy]
  · rw [htracker, Tracker.window_step, hwindow]
  · rw [htracker]
    exact held_registry_process hapart hc hregistry
  · rw [htracker]
    rw [← hwindow] at hledger ⊢
    exact held_ledger_process hapart hsettled.2 hc hledger hsound' hf
  · rw [htracker]
    exact hsound'
  · rw [htouches.place]
    exact ⟨_, by simp [hne], hadds content hcontent⟩

/-! ### Whole runs -/

theorem addRows_reset (output : Option Output) (files : FileTree) (rows : List Row) :
    let zero (o : Output) : Output := { o with written := 0 }
    (addRows (output.map zero) files rows).files = (addRows output files rows).files
      ∧ (addRows (output.map zero) files rows).done = (addRows output files rows).done
      ∧ (addRows (output.map zero) files rows).output.map zero
        = (addRows output files rows).output.map zero := by
  cases output with
  | none => exact ⟨rfl, rfl, rfl⟩
  | some o =>
    obtain ⟨hfiles, hadded, houtput⟩ := o.write_reset files (rows.map Row.cells)
    exact ⟨hfiles, congrArg (Except.map fun _ => ()) hadded, congrArg some houtput⟩

/-- How many rows were counted matters for nothing else. -/
theorem process_reopened (r : Recorder) (files : FileTree) (item : Item) (now : Int) :
    (r.reopened.process files item now).recorder.reopened
        = (r.process files item now).recorder.reopened
      ∧ (r.reopened.process files item now).files = (r.process files item now).files
      ∧ (r.reopened.process files item now).rows = (r.process files item now).rows := by
  obtain ⟨t, store, output⟩ := r
  cases item with
  | foreign => exact ⟨by cases output <;> rfl, rfl, rfl⟩
  | event e =>
    cases e with
    | announce a => exact ⟨by cases output <;> rfl, rfl, rfl⟩
    | blockImport b =>
      obtain ⟨hfiles, hdone, houtput⟩ :=
        addRows_reset output files (t.step now (.event (.blockImport b))).2
      simp only [process, record, reopened]
      rw [hfiles, hdone]
      cases (addRows output files (t.step now (.event (.blockImport b))).2).done with
      | error f => simp [houtput]
      | ok _ => simp [houtput]

end Recorder

/-- Courses that went alike, but for how many rows were counted since the last restart. -/
structure Course.Alike (c u : Course) : Prop where
  recorder : c.session.recorder.reopened = u.session.recorder.reopened
  files : c.session.files = u.session.files
  rows : c.outcomes.map Recorder.Outcome.rows = u.outcomes.map Recorder.Outcome.rows

open Recorder (Plan Kept)

variable {plan : Plan}

theorem Course.alike_arrival {c u : Course} (h : c.Alike u) (a : Arrival) :
    Alike ⟨c.session.next a, c.outcomes ++ [c.session.apply a], c.recent ++ [c.session.apply a]⟩
      ⟨u.session.next a, u.outcomes ++ [u.session.apply a], u.recent ++ [u.session.apply a]⟩ := by
  obtain ⟨⟨r, files⟩, outcomes, recent⟩ := c
  obtain ⟨⟨r', files'⟩, outcomes', recent'⟩ := u
  obtain ⟨hrecorder, hfiles, hrows⟩ := h
  dsimp only at hrecorder hfiles hrows
  subst hfiles
  have hc := r.process_reopened files a.item a.now
  have hu := r'.process_reopened files a.item a.now
  rw [hrecorder] at hc
  refine ⟨hc.1.symm.trans hu.1, hc.2.1.symm.trans hu.2.1, ?_⟩
  have hrow : (Session.apply ⟨r, files⟩ a).rows = (Session.apply ⟨r', files⟩ a).rows :=
    hc.2.2.symm.trans hu.2.2
  rw [List.map_append, List.map_append, hrows, List.map_singleton, List.map_singleton, hrow]

theorem Course.alike_restart {c u : Course} (h : c.Alike u) (hu : Kept plan u.session) :
    ∃ s, Session.open plan c.session.files = .ok s ∧ Alike ⟨s, c.outcomes, []⟩ u := by
  refine ⟨⟨u.session.recorder.reopened, u.session.files⟩, ?_, ?_, rfl, h.rows⟩
  · rw [h.files]
    exact Recorder.open_of_kept hu
  · rcases u with ⟨⟨⟨t, store, output⟩, files⟩, outcomes, recent⟩
    cases output <;> rfl

/-- A course with restarts goes like the one in which the same items arrive without them. -/
theorem Course.alike_play {turns : List Turn} (hplan : ∀ p, .restart p ∈ turns → p = plan)
    {c u : Course} (halike : c.Alike u) (hkept : Kept plan u.session)
    (hchecked : ∀ a, .arrival a ∈ turns → a.item.Checked)
    (houtcomes : ∀ o ∈ u.session.outcomes (turns.filterMap Turn.arrival?),
      o.Complete ∧ ∀ entry ∈ o.recorder.tracker.ledger.entries, entry.2.Fits) :
    ∃ last, c.play turns = .ok last
      ∧ last.Alike ⟨u.session.after (turns.filterMap Turn.arrival?),
          u.outcomes ++ u.session.outcomes (turns.filterMap Turn.arrival?), []⟩ := by
  induction turns generalizing c u with
  | nil =>
    refine ⟨c, rfl, halike.recorder, halike.files, ?_⟩
    simpa [Session.outcomes] using halike.rows
  | cons turn turns ih =>
    have hplan' : ∀ p, .restart p ∈ turns → p = plan := fun p hp =>
      hplan p (List.mem_cons_of_mem _ hp)
    have hchecked' : ∀ a, .arrival a ∈ turns → a.item.Checked := fun a ha =>
      hchecked a (List.mem_cons_of_mem _ ha)
    cases turn with
    | arrival a =>
      obtain ⟨⟨hcomplete, hfits⟩, hrest⟩ := List.forall_mem_cons.mp houtcomes
      have hnext : Kept plan (u.session.next a) :=
        Recorder.kept_next hkept (hchecked a (List.mem_cons_self ..)) hcomplete hfits
      obtain ⟨last, hlast, hlike⟩ := ih hplan' (Course.alike_arrival halike a) hnext hchecked' hrest
      refine ⟨last, hlast, hlike.recorder, hlike.files, ?_⟩
      rw [hlike.rows]
      simp [Turn.arrival?, Session.outcomes]
    | restart p =>
      cases hplan p (List.mem_cons_self ..)
      obtain ⟨s, hopen, hlike⟩ := Course.alike_restart halike hkept
      obtain ⟨last, hlast, hlike'⟩ := ih hplan' hlike hkept hchecked' houtcomes
      exact ⟨last, (Course.play_restart hopen turns).trans hlast, hlike'⟩

/-! ### Finalized records -/

/-- The record of a hash after the first `n` arrivals. -/
def Session.record? (s : Session) (arrivals : List Arrival) (hash : Text) (n : ℕ) : Option Record :=
  (s.after (arrivals.take n)).recorder.tracker.ledger.get? hash

/-- While a hash is kept, its record stays finalized. -/
theorem Session.finalized_of_kept {s : Session} {arrivals : List Arrival} {hash : Text} {n m : ℕ}
    {r : Record} (hnm : n ≤ m) (hr : s.record? arrivals hash n = some r) (hf : r.finalized = true)
    (hkept : ∀ k, n < k → k ≤ m → (s.record? arrivals hash k).isSome) :
    ∃ c, s.record? arrivals hash m = some c ∧ c.finalized = true := by
  induction m, hnm using Nat.le_induction with
  | base => exact ⟨r, hr, hf⟩
  | succ m hnm ih =>
    obtain ⟨c, hc, hfin⟩ := ih fun k hk hkm => hkept k hk (by omega)
    obtain ⟨d, hd⟩ := Option.isSome_iff_exists.mp (hkept (m + 1) (by omega) (Nat.le_refl _))
    refine ⟨d, hd, ?_⟩
    rw [Session.record?, List.take_add_one, Session.after_append] at hd
    cases ha : arrivals[m]? with
    | none =>
      rw [ha] at hd
      cases hc.symm.trans hd
      exact hfin
    | some a =>
      rw [ha, Option.toList_some, Session.after_cons, Session.after_nil, Session.tracker_next] at hd
      exact Tracker.finalized_of_finalized hc hfin hd

/-- Whatever the points at which the recorder is thrown away and opened again from the same
plan, every item gives back the same rows, and at the end memory and files are the same. In
particular a record that was finalized at some point brings no rows later, restarts or not,
for as long as it is kept. A snapshot is there at first or it is not: its path can be followed
then, unless it would lead to no file. -/
theorem Course.play_eq_of_restarts {files : FileTree} {s : Session}
    (hopen : Session.open plan files = .ok s) (hapart : plan.Apart files)
    (hsettled : plan.Settled files) (turns : List Turn)
    (hplan : ∀ p, .restart p ∈ turns → p = plan)
    (hchecked : ∀ a, .arrival a ∈ turns → a.item.Checked)
    (houtcomes : ∀ o ∈ s.outcomes (turns.filterMap Turn.arrival?),
      o.Complete ∧ ∀ entry ∈ o.recorder.tracker.ledger.entries, entry.2.Fits) :
    ∃ c, (Course.start s).play turns = .ok c
      ∧ c.outcomes.map Recorder.Outcome.rows
        = (s.outcomes (turns.filterMap Turn.arrival?)).map Recorder.Outcome.rows
      ∧ c.session.recorder.tracker
        = (s.after (turns.filterMap Turn.arrival?)).recorder.tracker
      ∧ c.session.files = (s.after (turns.filterMap Turn.arrival?)).files
      ∧ ∀ hash n m r o rows, n ≤ m → s.record? (turns.filterMap Turn.arrival?) hash n = some r →
        r.finalized = true →
        (∀ k, n < k → k ≤ m → (s.record? (turns.filterMap Turn.arrival?) hash k).isSome) →
        c.outcomes[m]? = some o → o.rows = .ok rows →
        rows.filter (fun row => row.hash = hash) = [] := by
  have hstart : (Course.start s).Alike (Course.start s) := ⟨rfl, rfl, rfl⟩
  obtain ⟨c, hplay, hrecorder, hfiles, hrows⟩ := Course.alike_play hplan hstart
    (Recorder.kept_of_open hopen hapart hsettled) hchecked houtcomes
  refine ⟨c, hplay, hrows, (congrArg Recorder.tracker hrecorder :), hfiles, ?_⟩
  intro hash n m r o rows hnm hr hf hkept ho hok
  obtain ⟨d, hd, hfin⟩ := Session.finalized_of_kept hnm hr hf hkept
  -- the outcome without restarts has the same rows
  have hsame := congrArg (fun rows => rows[m]?) hrows
  simp only [Course.start, List.nil_append, List.getElem?_map, ho, Session.getElem?_outcomes,
    Option.map_some] at hsame
  cases ha : (turns.filterMap Turn.arrival?)[m]? with
  | none => simp [ha] at hsame
  | some a =>
    simp only [ha, Option.map_some, Option.some.injEq, hok] at hsame
    rw [Recorder.rows_of_process_ok hsame.symm]
    exact Tracker.rows_of_finalized hd hfin

/-- A node joins and reports a block, and a late report follows, with restarts between. -/
def twoRestarts : List Turn :=
  [.arrival ⟨.event (.announce ⟨1, "a,b", "x"⟩), 0⟩, .restart besidePlan,
    .arrival ⟨.event (.blockImport ⟨1, 7, "h", 40⟩), 5⟩, .restart besidePlan,
    .arrival ⟨.event (.blockImport ⟨2, 7, "h", 40⟩), 9⟩]

/-- The restarts do not forget the name of the node, nor that the block is finalized. -/
theorem play_twoRestarts : ∃ s c, Session.open besidePlan .empty = .ok s
    ∧ (Course.start s).play twoRestarts = .ok c
    ∧ c.outcomes.map Recorder.Outcome.rows
      = [.ok [], .ok [⟨5, "a,b", "x", 7, "h", some 40⟩], .ok []] := by
  have hopen : Session.open besidePlan .empty
      = .ok ⟨⟨⟨.empty, .empty, besidePlan.policy, besidePlan.window⟩, besidePlan.storage 0⟩,
          (Output.prepare .empty besidePlan.output Row.columns).1⟩ := rfl
  obtain ⟨c, hplay, hrows, -⟩ := Course.play_eq_of_restarts hopen (by decide +kernel)
    (by decide +kernel) twoRestarts (by simp [twoRestarts])
    (by simp [twoRestarts, Item.Checked]) (by decide +kernel)
  refine ⟨_, c, hopen, hplay, ?_⟩
  rw [hrows]
  decide +kernel

/-- The blocks are kept beyond a directory that is missing at first; the nodes are kept in it. -/
def detourPlan : Plan :=
  { besidePlan with nodes := ⟨false, ["d", "nodes"]⟩, blocks := ⟨false, ["d", "..", "blocks"]⟩ }

/-- A snapshot of one block. -/
def detourFiles : FileTree :=
  ⟨[(["blocks"], .file (Utf8.encode (.ofString
    "\x7b\"h\":\x7b\"block_number\":10,\"first_seen\":1\x7d\x7d")))], []⟩

def detourArrival : Arrival := ⟨.event (.announce ⟨1, "a", "x"⟩), 1⟩

/-- The snapshot of the blocks is not found at first. Saving the nodes makes the directory, and a
restart then finds a block that the run without the restart does not have. -/
theorem block_found_of_detour : ∃ s, Session.open detourPlan detourFiles = .ok s
    ∧ detourPlan.Apart detourFiles
    ∧ (∀ o ∈ s.outcomes [detourArrival], o.Complete)
    ∧ (s.after [detourArrival]).recorder.tracker.ledger.keys = []
    ∧ ((Course.start s).play [.arrival detourArrival, .restart detourPlan]).map
        (fun c => c.session.recorder.tracker.ledger.keys) = .ok [("h" : Text)] :=
  ⟨_, rfl, by decide +kernel, by decide +kernel, by decide +kernel, by decide +kernel⟩

end AuthorWatch
