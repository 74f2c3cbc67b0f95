import AuthorWatch.Snapshot.Store
import AuthorWatch.Proofs.Files.Tree
import AuthorWatch.Proofs.Text.Utf8
import Mathlib.Data.List.Basic
import Mathlib.Data.List.TakeWhile

/-! Saving a snapshot. However a save ends, it touches no file but the snapshot and its
draft; a save that is done leaves the whole document in the snapshot. -/

namespace AuthorWatch

/-! ### Drafts -/

namespace Path

theorem placeFrom_eq (start : Place) {p : Path} (name : Text)
    (h : p.segments.getLast? = some name) :
    p.placeFrom start = descend (p.parent.placeFrom start) name := by
  have hs : p.segments = p.segments.dropLast ++ [name] :=
    (List.dropLast_append_getLast? name h).symm
  rw [placeFrom, hs, List.foldl_append]
  rfl

/-- A draft stands in the directory of its snapshot, under the longer name. -/
theorem exists_placeFrom_sibling (start : Place) {p draft : Path}
    (h : p.sibling? Snapshot.draftEnding = some draft) :
    ∃ name, p.segments.getLast? = some name
      ∧ draft.placeFrom start = p.parent.placeFrom start ++ [name ++ Snapshot.draftEnding] := by
  rw [sibling?, Option.map_eq_some_iff] at h
  obtain ⟨name, hname, rfl⟩ := h
  have hparent : ({ p with segments := p.segments.dropLast ++ [name ++ Snapshot.draftEnding] }
      : Path).parent = p.parent := by
    simp [parent]
  have hlen : ∀ t : Text, name ++ Snapshot.draftEnding = t → 4 ≤ t.length := by
    rintro t rfl
    simp [Snapshot.draftEnding, Text.ofString]
  have hup : name ++ Snapshot.draftEnding ≠ ".." := fun e => absurd (hlen _ e) (by decide)
  refine ⟨name, hname, ?_⟩
  rw [placeFrom_eq start (name ++ Snapshot.draftEnding) (by simp), hparent, descend, if_neg hup]

theorem parent_sibling {p draft : Path} {ending : Text} (h : p.sibling? ending = some draft) :
    draft.parent = p.parent := by
  rw [sibling?, Option.map_eq_some_iff] at h
  obtain ⟨name, -, rfl⟩ := h
  simp [parent]

/-- A draft stands at another place than its snapshot. -/
theorem placeFrom_sibling_ne (start : Place) {p draft : Path}
    (h : p.sibling? Snapshot.draftEnding = some draft) :
    draft.placeFrom start ≠ p.placeFrom start := by
  obtain ⟨name, hname, hdraft⟩ := exists_placeFrom_sibling start h
  rw [hdraft, placeFrom_eq start name hname, descend]
  split
  next hdots =>
    intro e
    have := congrArg List.length e
    simp at this
    omega
  next =>
    intro e
    simp [Snapshot.draftEnding, Text.ofString] at e

end Path

namespace Snapshot

/-- The places that saves to a path are about: the snapshot and its draft. -/
def places (files : FileTree) (path : Path) : List Place :=
  files.place path :: ((path.sibling? draftEnding).map files.place).toList

theorem places_of_extends {files later : FileTree} (h : files.Extends later) (path : Path) :
    places later path = places files path := by
  have hplace : later.place = files.place := funext h.place
  rw [places, places, hplace]

variable {files : FileTree} {draft path : Path} {document : Json} {saved : Saved}

/-! ### How a save ends -/

/-- How a save can end, whatever stops it: with some of the directories made and nothing written,
with a draft of any content that is not moved, or with the draft of the whole document moved over
the snapshot. -/
inductive Ends (files : FileTree) (path draft : Path) (document : Json) : Saved → Prop
  | unopened {places : List Place} (hplaces : places <+: path.parent.way files.start) :
      Ends files path draft document ⟨(files.makeAll places).1, false⟩
  | unmoved {made written : FileTree} {part : List UInt8}
      (hmake : files.makeDirectory path.parent = (made, .ok ()))
      (hwrite : made.write draft part = .ok written) :
      Ends files path draft document ⟨written, false⟩
  | moved {made written replaced : FileTree}
      (hmake : files.makeDirectory path.parent = (made, .ok ()))
      (hwritable : document.isWritable = true)
      (hwrite : made.write draft (Utf8.encode document.write) = .ok written)
      (hreplace : written.replace draft path = .ok replaced) :
      Ends files path draft document ⟨replaced, true⟩

/-- A save returns, and ends in one of these ways. -/
theorem exists_ends (hd : path.sibling? draftEnding = some draft) :
    ∃ saved, save files path document = .ok saved ∧ Ends files path draft document saved := by
  refine ⟨writeDraft files draft path document.pieces, by rw [save, hd], ?_⟩
  have hunopened : Ends files path draft document ⟨(files.makeDirectory path.parent).1, false⟩ :=
    .unopened (List.prefix_refl _)
  unfold writeDraft
  rcases hmake : files.makeDirectory path.parent with ⟨made, _ | _⟩ <;> rw [hmake] at hunopened
  · exact hunopened
  · dsimp only
    cases hwrite : made.write draft (Utf8.encode
        ((document.pieces.takeWhile Json.Piece.isWritable).flatMap Json.Piece.toText)) with
    | error e => exact hunopened
    | ok written =>
      dsimp only
      cases hall : document.pieces.all Json.Piece.isWritable with
      | false => exact .unmoved hmake hwrite
      | true =>
        rw [if_pos rfl]
        cases hreplace : written.replace draft path with
        | error e => exact .unmoved hmake hwrite
        | ok replaced =>
          rw [List.takeWhile_eq_self_iff.mpr (List.all_eq_true.mp hall)] at hwrite
          exact .moved hmake hall hwrite hreplace

/-! ### What a save changes -/

theorem Ends.extends (h : Ends files path draft document saved)
    (hne : files.place draft ≠ files.place path) : files.Extends saved.files := by
  cases h with
  | unopened hplaces => exact (FileTree.touches_makeAll files _ []).toExtends
  | unmoved hmake hwrite =>
    exact (FileTree.touches_of_makeDirectory hmake []).toExtends.trans
      (FileTree.write_spec hwrite).1
  | moved hmake hwritable hwrite hreplace =>
    have hext := (FileTree.touches_of_makeDirectory hmake []).toExtends.trans
      (FileTree.write_spec hwrite).1
    refine hext.trans (FileTree.replace_spec hreplace ?_).1
    rwa [hext.place, hext.place]

/-- A save that is not done changes its draft only, but for directories on the way. -/
theorem Ends.kept_of_undone (h : Ends files path draft document saved) (hdone : saved.done = false)
    {q : Place} (hq : q ≠ files.place draft) :
    files.Kept saved.files (path.parent.way files.start) q := by
  cases h with
  | unopened hplaces => exact (FileTree.kept_makeAll files _ q).mono hplaces.subset
  | unmoved hmake hwrite =>
    have hentry := FileTree.entryAt?_write hwrite q
    rw [(FileTree.touches_of_makeDirectory hmake []).place, if_neg hq.symm] at hentry
    rw [FileTree.Kept, hentry]
    exact FileTree.kept_of_makeDirectory hmake q
  | moved => cases hdone

/-- A save that is done puts the document in the place of the snapshot and leaves no draft. -/
theorem Ends.entryAt?_of_done (h : Ends files path draft document saved)
    (hdone : saved.done = true) : document.isWritable = true
      ∧ ∃ made, files.makeDirectory path.parent = (made, .ok ())
        ∧ ∀ q, saved.files.entryAt? q = if files.place draft = q then none
          else if files.place path = q then some (.file (Utf8.encode document.write))
          else made.entryAt? q := by
  cases h with
  | unopened => cases hdone
  | unmoved => cases hdone
  | @moved made written replaced hmake hwritable hwrite hreplace =>
    have hplace := (FileTree.touches_of_makeDirectory hmake []).place
    obtain ⟨hext, hwritten⟩ := FileTree.write_spec hwrite
    obtain ⟨content, hsource, hentries⟩ := FileTree.entryAt?_replace hreplace
    rw [hext.place, hwritten, Function.update_self] at hsource
    cases hsource
    refine ⟨hwritable, made, hmake, fun q => ?_⟩
    rw [hentries, FileTree.entryAt?_write hwrite, hext.place, hext.place, hplace, hplace]
    by_cases hq : files.place draft = q
    · rw [if_pos hq, if_pos hq]
    · rw [if_neg hq, if_neg hq, if_neg hq]

/-- Then the paths of both can be followed: their directory stands. -/
theorem Ends.leads_of_done (h : Ends files path draft document saved) (hdone : saved.done = true)
    (hd : path.sibling? draftEnding = some draft) :
    saved.files.Leads path ∧ saved.files.Leads draft := by
  cases h with
  | unopened => cases hdone
  | unmoved => cases hdone
  | @moved made written replaced hmake hwritable hwrite hreplace =>
    have hne : written.place draft ≠ written.place path := Path.placeFrom_sibling_ne _ hd
    have hext := (FileTree.write_spec hwrite).1.trans (FileTree.replace_spec hreplace hne).1
    have hstands := FileTree.stands_of_makeDirectory hmake
    exact ⟨(FileTree.leads_of_stands hstands).of_extends hext,
      (FileTree.leads_of_stands (by rwa [Path.parent_sibling hd])).of_extends hext⟩

/-- However a save ends, beyond the snapshot and its draft it only makes directories. -/
theorem Ends.kept (h : Ends files path draft document saved) {q : Place}
    (hpath : q ≠ files.place path) (hdraft : q ≠ files.place draft) :
    files.Kept saved.files (path.parent.way files.start) q := by
  cases hdone : saved.done with
  | false => exact h.kept_of_undone hdone hdraft
  | true =>
    obtain ⟨-, made, hmake, hentries⟩ := h.entryAt?_of_done hdone
    have hentry := hentries q
    rw [if_neg hdraft.symm, if_neg hpath.symm] at hentry
    rw [FileTree.Kept, hentry]
    exact FileTree.kept_of_makeDirectory hmake q

theorem save_spec (h : save files path document = .ok saved) :
    files.Touches saved.files (places files path)
      ∧ (saved.done = true → document.isWritable = true
        ∧ saved.files.content? path = some (Utf8.encode document.write)) := by
  cases hd : path.sibling? draftEnding with
  | none => rw [save, hd] at h; cases h
  | some draft =>
    obtain ⟨_, hsave, hends⟩ := exists_ends hd
    cases h.symm.trans hsave
    have hne : files.place draft ≠ files.place path := Path.placeFrom_sibling_ne _ hd
    have hplaces : places files path = [files.place path, files.place draft] := by
      rw [places, hd]
      rfl
    rw [hplaces]
    refine ⟨⟨hends.extends hne, fun q hq => ?_⟩, fun hdone => ?_⟩
    · simp only [List.mem_cons, List.not_mem_nil, or_false, not_or] at hq
      exact (hends.kept hq.1 hq.2).contentAt?_eq
    · obtain ⟨hwritable, made, -, hentries⟩ := hends.entryAt?_of_done hdone
      refine ⟨hwritable, FileTree.content?_eq_some_iff.mpr
        ⟨(hends.leads_of_done hdone hd).1, FileTree.contentAt?_eq_some_iff.mpr ?_⟩⟩
      rw [(hends.extends hne).place, hentries, if_neg hne, if_pos rfl]

/-! ### Saves that succeed -/

/-- The directory of a snapshot is there or can be made, and no other directory is in the place
of the snapshot or of its draft. -/
def Writable (files : FileTree) (path : Path) : Prop :=
  ∃ draft made, path.sibling? draftEnding = some draft ∧ path.segments.getLast? ≠ some (".." : Text)
    ∧ files.makeDirectory path.parent = (made, .ok ())
    ∧ made.lookup? draft ≠ some .directory ∧ made.lookup? path ≠ some .directory

/-- A snapshot and its draft stand in the directory of both. -/
theorem parent_of_stands (hd : path.sibling? draftEnding = some draft)
    (hname : path.segments.getLast? ≠ some (".." : Text)) (h : files.Stands path.parent) :
    files.entryAt? (files.place draft).dropLast = some .directory
      ∧ files.entryAt? (files.place path).dropLast = some .directory := by
  obtain ⟨name, hlast, hdraft⟩ := Path.exists_placeFrom_sibling files.start hd
  have hup : name ≠ ".." := fun hup => hname (hup ▸ hlast)
  have hplace := Path.placeFrom_eq files.start name hlast
  rw [Path.descend, if_neg hup] at hplace
  have hparent := h _ (Path.placeFrom_mem_way files.start path.parent)
  rw [FileTree.place, FileTree.place, hdraft, hplace, List.dropLast_concat, List.dropLast_concat]
  exact ⟨hparent, hparent⟩

theorem writeDraft_done {pieces : List Json.Piece} {made : FileTree}
    (hd : path.sibling? draftEnding = some draft)
    (hname : path.segments.getLast? ≠ some (".." : Text))
    (hmake : files.makeDirectory path.parent = (made, .ok ()))
    (hdraft : made.lookup? draft ≠ some .directory) (hpath : made.lookup? path ≠ some .directory)
    (he : pieces.all Json.Piece.isWritable = true) :
    (writeDraft files draft path pieces).done = true := by
  have hne : made.place draft ≠ made.place path := Path.placeFrom_sibling_ne _ hd
  have hstands := FileTree.stands_of_makeDirectory hmake
  have hleads : made.Leads path := FileTree.leads_of_stands hstands
  have hleadsDraft : made.Leads draft :=
    FileTree.leads_of_stands (by rwa [Path.parent_sibling hd])
  rw [FileTree.lookup?_of_leads hleads] at hpath
  rw [FileTree.lookup?_of_leads hleadsDraft] at hdraft
  obtain ⟨hdraftParent, hpathParent⟩ := parent_of_stands hd hname hstands
  set content := Utf8.encode
    ((pieces.takeWhile Json.Piece.isWritable).flatMap Json.Piece.toText) with hcontent
  have hwrite : made.write draft content = .ok (made.set (made.place draft) (.file content)) :=
    FileTree.write_ok hleadsDraft hdraft hdraftParent content
  obtain ⟨hext, hwritten⟩ := FileTree.write_spec hwrite
  set written := made.set (made.place draft) (.file content) with hset
  have hread : written.contentAt? (written.place draft) = some content := by
    rw [hext.place, hwritten, Function.update_self]
  have hmove : written.entryAt? (written.place path) ≠ some .directory := by
    rw [hext.place, FileTree.entryAt?_write hwrite, if_neg hne]
    exact hpath
  rw [← hext.place] at hpathParent
  have hmoved := FileTree.write_ok (hleads.of_extends hext) hmove
    (hext.directory _ hpathParent) content
  have hreplace := FileTree.replace_ok (hleadsDraft.of_extends hext) hread hmoved
  simp only [writeDraft, hmake, ← hcontent, hwrite, he, if_true, hreplace]

/-- A document that can be written is saved wherever a snapshot can be. -/
theorem exists_done {document : Json} (h : Writable files path)
    (he : document.isWritable = true) :
    ∃ saved, save files path document = .ok saved ∧ saved.done = true := by
  obtain ⟨draft, made, hd, hname, hmake, hdraft, hpath⟩ := h
  exact ⟨writeDraft files draft path document.pieces, by rw [save, hd],
    writeDraft_done hd hname hmake hdraft hpath he⟩

end Snapshot

end AuthorWatch
