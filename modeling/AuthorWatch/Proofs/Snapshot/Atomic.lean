import AuthorWatch.Proofs.Recorder.Process
import AuthorWatch.Proofs.Snapshot.Document
import AuthorWatch.Proofs.Snapshot.Save

/-! Saves are all or nothing. A save makes the directories on its way, writes a draft beside the
snapshot and moves the draft over it. Only the move touches the snapshot: so whatever stops a save,
and wherever, the snapshot holds the whole new document or what it held before. A path that goes up
from a directory that was missing may be one that can be followed only afterwards. -/

namespace AuthorWatch

namespace Path

/-- The path never goes up. -/
def Downward (p : Path) : Prop := (".." : Text) ∉ p.segments

theorem length_foldl_descend {segments : List Text} (h : (".." : Text) ∉ segments) (place : Place) :
    (segments.foldl descend place).length = place.length + segments.length := by
  induction segments generalizing place with
  | nil => rfl
  | cons segment rest ih =>
    obtain ⟨hs, hrest⟩ := not_or.mp (List.mem_cons.not.mp h)
    rw [List.foldl_cons, ih hrest, descend, if_neg (Ne.symm hs), List.length_append,
      List.length_singleton, List.length_cons]
    omega

theorem length_le_of_mem_wayFrom {segments : List Text} (h : (".." : Text) ∉ segments)
    {place q : Place} (hq : q ∈ wayFrom place segments) :
    q.length ≤ place.length + segments.length := by
  induction segments generalizing place with
  | nil =>
    rw [List.mem_singleton.mp hq]
    exact Nat.le_refl _
  | cons segment rest ih =>
    obtain ⟨hs, hrest⟩ := not_or.mp (List.mem_cons.not.mp h)
    rw [wayFrom, List.mem_cons] at hq
    rw [List.length_cons]
    obtain rfl | hq := hq
    · omega
    · have hle := ih hrest hq
      rw [descend, if_neg (Ne.symm hs), List.length_append, List.length_singleton] at hle
      omega

/-- Such a path does not lead to a place on the way to its directory. -/
theorem Downward.not_mem_way {p : Path} (h : p.Downward) (hp : p.Named) (start : Place) :
    p.placeFrom start ∉ p.parent.way start := by
  intro hmem
  have hpos : 0 < p.segments.length := List.length_pos_iff.mpr hp
  have hle := length_le_of_mem_wayFrom (fun hup => h (List.dropLast_subset _ hup)) hmem
  rw [placeFrom, length_foldl_descend h] at hle
  change _ ≤ (p.origin start).length + p.segments.dropLast.length at hle
  rw [List.length_dropLast] at hle
  omega

end Path

namespace Snapshot

variable {files : FileTree} {path draft : Path}

/-- A save of the document returns, and it is done if nothing is in its way. However it ends, the
snapshot holds the whole document and the draft is gone, or the file in the place of the snapshot
is what it was. What was found at the path is found there still, and the path gives what it gave if
it could be followed before. No other entry of the tree changes, but for directories on the way
that were missing. -/
structure Atomic {α : Type} (load : FileTree → Path → OrderedMap α × List Notice) (files : FileTree)
    (path draft : Path) (document : Json) : Prop where
  returns : ∃ saved, save files path document = .ok saved
    ∧ Ends files path draft document saved
    ∧ (Writable files path → document.isWritable = true → saved.done = true)
  done : ∀ saved, Ends files path draft document saved → saved.done = true →
    document.isWritable = true
    ∧ saved.files.lookup? path = some (.file (Utf8.encode document.write))
    ∧ saved.files.lookup? draft = none
  undone : ∀ saved, Ends files path draft document saved → saved.done = false →
    (∀ entry, files.lookup? path = some entry → saved.files.lookup? path = some entry)
    ∧ (path.Downward → saved.files.lookup? path = files.lookup? path)
    ∧ saved.files.contentAt? (files.place path) = files.contentAt? (files.place path)
    ∧ (files.Settled path → (load saved.files path).1 = (load files path).1)
  others : ∀ saved, Ends files path draft document saved →
    ∀ q, q ≠ files.place path → q ≠ files.place draft →
      files.Kept saved.files (path.parent.way files.start) q

theorem atomic_of_sibling {α : Type} (read : Json → Check α) (kind : SnapshotKind)
    (hp : path.Named) (hd : path.sibling? draftEnding = some draft) (document : Json) :
    Atomic (load read kind) files path draft document := by
  have hne : files.place draft ≠ files.place path := Path.placeFrom_sibling_ne _ hd
  refine ⟨?_, fun saved h hdone => ?_, fun saved h hdone => ?_,
    fun saved h q hpath hdraft => h.kept hpath hdraft⟩
  · obtain ⟨saved, hsave, hends⟩ : ∃ saved, save files path document = .ok saved
        ∧ Ends files path draft document saved := exists_ends hd
    refine ⟨saved, hsave, hends, fun hw he => ?_⟩
    obtain ⟨_, hsave', hdone⟩ := exists_done hw he
    cases hsave.symm.trans hsave'
    exact hdone
  · obtain ⟨hwritable, made, -, hentries⟩ := h.entryAt?_of_done hdone
    obtain ⟨hleads, hleadsDraft⟩ := h.leads_of_done hdone hd
    have hplace := (h.extends hne).place
    refine ⟨hwritable, ?_, ?_⟩
    · rw [FileTree.lookup?_of_leads hleads, hplace, hentries, if_neg hne, if_pos rfl]
    · rw [FileTree.lookup?_of_leads hleadsDraft, hplace, hentries, if_pos rfl]
  · have hext := h.extends hne
    have hkept := h.kept_of_undone hdone hne.symm
    have hentry : files.Leads path →
        (files.place path ∈ path.parent.way files.start → files.lookup? path ≠ none) →
        saved.files.lookup? path = files.lookup? path := by
      intro hleads hsome
      rw [FileTree.lookup?_of_leads hleads] at hsome ⊢
      rw [FileTree.lookup?_of_leads (hleads.of_extends hext), hext.place, hkept.entry hsome]
    refine ⟨fun entry hfound => ?_, fun hdown => ?_, hkept.contentAt?_eq, fun hsettled => ?_⟩
    · have hsome : files.lookup? path ≠ none := by rw [hfound]; exact Option.some_ne_none _
      rw [hentry (FileTree.leads_of_lookup? hsome) fun _ => hsome, hfound]
    · exact hentry (FileTree.leads_of_downward hdown)
        fun hmem => absurd hmem (hdown.not_mem_way hp files.start)
    · rw [load_fst, load_fst, held_of_content (hsettled.content?_eq hext hkept.contentAt?_eq)]

/-- Every registry and every ledger is saved wholly or not at all, at any path with a name and
into any tree, whatever stops the save. -/
theorem saves_atomic (files : FileTree) (path : Path) (hp : path.Named) :
    ∃ draft, path.sibling? draftEnding = some draft ∧ files.place draft ≠ files.place path
      ∧ (∀ registry : Registry, Atomic loadRegistry files path draft registry.toJson)
      ∧ ∀ ledger : Ledger, Atomic loadLedger files path draft ledger.toJson := by
  obtain ⟨draft, hd⟩ := hp.exists_sibling draftEnding
  exact ⟨draft, hd, Path.placeFrom_sibling_ne _ hd,
    fun registry => atomic_of_sibling Node.ofJson .nodes hp hd registry.toJson,
    fun ledger => atomic_of_sibling Record.ofJson .blocks hp hd ledger.toJson⟩

/-- A registry of one node with the name. -/
def named (name : Text) : Registry := Registry.announce .empty ⟨1, name, "n"⟩

/-- A snapshot that is found only once the directory before the way up is there. -/
def besideFiles : FileTree :=
  ⟨[(["n"], .file (Utf8.encode (.ofString
    "\x7b\"1\":\x7b\"name\":\"a\",\"node_id\":\"b\"\x7d\x7d")))], []⟩

/-- On the way to a path that goes up again, or below another one, directories come to stand
where nothing was: at the path itself, though the save is not done, and at the other one. A
directory that was missing before a way up can be made by a save that is not done, and then the
path gives what it did not give before. -/
theorem directories_on_the_way :
    (∃ saved, save .empty ⟨false, ["x", "y", ".."]⟩ (Registry.toJson .empty) = .ok saved
      ∧ saved.done = false
      ∧ FileTree.empty.lookup? ⟨false, ["x", "y", ".."]⟩ = none
      ∧ saved.files.lookup? ⟨false, ["x", "y", ".."]⟩ = some .directory)
    ∧ (∃ saved, save .empty ⟨false, ["a", "b"]⟩ (Registry.toJson .empty) = .ok saved
      ∧ FileTree.empty.lookup? ⟨false, ["a"]⟩ = none
      ∧ saved.files.lookup? ⟨false, ["a"]⟩ = some .directory)
    ∧ ∃ saved, save besideFiles ⟨false, ["missing", "..", "n"]⟩ (named [.surrogate 0]).toJson
        = .ok saved
      ∧ saved.done = false
      ∧ (loadRegistry besideFiles ⟨false, ["missing", "..", "n"]⟩).1.size = 0
      ∧ (loadRegistry saved.files ⟨false, ["missing", "..", "n"]⟩).1.size = 1 :=
  ⟨⟨_, rfl, by decide +kernel, rfl, by decide +kernel⟩, ⟨_, rfl, rfl, by decide +kernel⟩,
    ⟨_, rfl, by decide +kernel, by decide +kernel, by decide +kernel⟩⟩

/-- A snapshot of no nodes in a directory. -/
def oldNodes : FileTree := ⟨[(["data"], .directory), (["data", "nodes"], .file [123, 125])], []⟩

/-- The document of the one node with the name `a`. -/
def namedText : Text := "\x7b\"1\":\x7b\"name\":\"a\",\"node_id\":\"n\"\x7d\x7d"

/-- A name that has no encoding leaves the old snapshot, and one that has an encoding replaces
it. -/
theorem saves_atomic_of_oldNodes :
    (∃ saved, save oldNodes ⟨false, ["data", "nodes"]⟩ (named [.surrogate 0]).toJson = .ok saved
      ∧ saved.done = false
      ∧ saved.files.lookup? ⟨false, ["data", "nodes"]⟩ = some (.file [123, 125])
      ∧ (loadRegistry saved.files ⟨false, ["data", "nodes"]⟩).1
        = (loadRegistry oldNodes ⟨false, ["data", "nodes"]⟩).1)
    ∧ ∃ saved, save oldNodes ⟨false, ["data", "nodes"]⟩ (named "a").toJson = .ok saved
      ∧ saved.done = true
      ∧ saved.files.lookup? ⟨false, ["data", "nodes"]⟩ = some (.file (Utf8.encode namedText))
      ∧ saved.files.lookup? ⟨false, ["data", "nodes.tmp"]⟩ = none := by
  obtain ⟨draft, hd, -, hregistry, -⟩ := saves_atomic oldNodes ⟨false, ["data", "nodes"]⟩ nofun
  cases hd
  constructor
  · obtain ⟨saved, hsave, hends, -⟩ := (hregistry (named [.surrogate 0])).returns
    have hdone : saved.done = false := by
      cases hsave
      decide +kernel
    obtain ⟨hentry, -, -, hload⟩ := (hregistry (named [.surrogate 0])).undone saved hends hdone
    exact ⟨saved, hsave, hdone, hentry _ (by decide), hload (by decide)⟩
  · obtain ⟨saved, hsave, hends, hproceeds⟩ := (hregistry (named "a")).returns
    have hdone := hproceeds ⟨_, _, rfl, by decide, rfl, by decide, by decide⟩ (by decide +kernel)
    obtain ⟨-, hentry, hdraft⟩ := (hregistry (named "a")).done saved hends hdone
    have hwrite : (named "a").toJson.write = namedText := by decide +kernel
    rw [hwrite] at hentry
    exact ⟨saved, hsave, hdone, hentry, hdraft⟩

end Snapshot

end AuthorWatch
