import AuthorWatch.Files.Tree
import AuthorWatch.Proofs.Except
import AuthorWatch.Proofs.OrderedMap
import Mathlib.Logic.Function.Basic

/-! What the operations on a tree change and what they leave alone. Directories stay where
they are, so a path that could be followed can be followed later on, and an operation changes
the content of no file but those it names. -/

namespace AuthorWatch

namespace Path

/-- A way ends where its last segment leads. -/
theorem foldl_mem_wayFrom (place : Place) (segments : List Text) :
    segments.foldl descend place ∈ wayFrom place segments := by
  induction segments generalizing place with
  | nil => exact List.mem_singleton_self place
  | cons segment rest ih => exact List.mem_cons_of_mem _ (ih _)

theorem placeFrom_mem_way (start : Place) (p : Path) : p.placeFrom start ∈ p.way start :=
  foldl_mem_wayFrom ..

end Path

namespace FileTree

/-- Relative paths start where they did, and every directory is still there. -/
structure Extends (t u : FileTree) : Prop where
  start : u.start = t.start
  directory : ∀ q, t.entryAt? q = some .directory → u.entryAt? q = some .directory

/-- Beyond that, no file changed but those at the given places. -/
structure Touches (t u : FileTree) (places : List Place) : Prop extends Extends t u where
  content : ∀ q, q ∉ places → u.contentAt? q = t.contentAt? q

/-- What is at a place was left alone, unless nothing was there and it was made a directory, as
one of the places of a way. -/
def Kept (t u : FileTree) (way : List Place) (q : Place) : Prop :=
  u.entryAt? q = t.entryAt? q
    ∨ t.entryAt? q = none ∧ u.entryAt? q = some .directory ∧ q ∈ way

/-- The path can be followed to its end. -/
def Leads (t : FileTree) (p : Path) : Prop := t.find p = .ok (t.place p)

/-- All places that a path passes are directories. -/
def Stands (t : FileTree) (p : Path) : Prop :=
  ∀ q ∈ p.way t.start, t.entryAt? q = some .directory

/-- The path can be followed, or there is no file where it would lead. -/
def Settled (t : FileTree) (p : Path) : Prop := t.Leads p ∨ t.contentAt? (t.place p) = none

/-- The content of the file that a path leads to. -/
def content? (t : FileTree) (p : Path) : Option (List UInt8) := (t.lookup? p).bind Entry.content?

variable {t u v : FileTree} {p : Path} {q r : Place} {content : List UInt8}

instance (t : FileTree) (p : Path) : Decidable (t.Leads p) :=
  match h : t.find p with
  | .ok place => decidable_of_iff (place = t.place p) (by simp [Leads, h])
  | .error _ => .isFalse (by simp [Leads, h])

instance (t : FileTree) (p : Path) : Decidable (t.Settled p) :=
  inferInstanceAs (Decidable (_ ∨ _))

namespace Extends

theorem refl (t : FileTree) : t.Extends t := ⟨rfl, fun _ h => h⟩

theorem trans (h : t.Extends u) (h' : u.Extends v) : t.Extends v :=
  ⟨h'.start.trans h.start, fun q hq => h'.directory q (h.directory q hq)⟩

theorem place (h : t.Extends u) (p : Path) : u.place p = t.place p := by
  rw [FileTree.place, FileTree.place, h.start]

theorem stands (h : t.Extends u) (hs : t.Stands p) : u.Stands p := by
  intro q hq
  rw [h.start] at hq
  exact h.directory q (hs q hq)

end Extends

namespace Touches

variable {places more : List Place}

theorem refl (t : FileTree) (places : List Place) : t.Touches t places :=
  ⟨.refl t, fun _ _ => rfl⟩

theorem mono (h : t.Touches u places) (hsub : places ⊆ more) : t.Touches u more :=
  ⟨h.toExtends, fun q hq => h.content q fun hm => hq (hsub hm)⟩

theorem trans (h : t.Touches u places) (h' : u.Touches v places) : t.Touches v places :=
  ⟨h.toExtends.trans h'.toExtends, fun q hq => (h'.content q hq).trans (h.content q hq)⟩

end Touches

namespace Kept

variable {way : List Place}

theorem refl (t : FileTree) (way : List Place) (q : Place) : t.Kept t way q := .inl rfl

theorem trans (h : t.Kept u way q) (h' : u.Kept v way q) : t.Kept v way q := by
  rcases h' with h' | ⟨hnone', hdirectory', hq⟩
  · rwa [Kept, h']
  · rcases h with h | ⟨-, hdirectory, -⟩
    · exact .inr ⟨h ▸ hnone', hdirectory', hq⟩
    · rw [hdirectory] at hnone'
      cases hnone'

theorem mono {more : List Place} (h : t.Kept u way q) (hsub : way ⊆ more) : t.Kept u more q :=
  h.imp_right fun h => ⟨h.1, h.2.1, hsub h.2.2⟩

theorem contentAt?_eq (h : t.Kept u way q) : u.contentAt? q = t.contentAt? q := by
  rw [contentAt?, contentAt?]
  rcases h with h | ⟨hnone, hdirectory, -⟩
  · rw [h]
  · rw [hnone, hdirectory]
    rfl

/-- What is there, or not on the way, is as it was. -/
theorem entry (h : t.Kept u way q) (hq : q ∈ way → t.entryAt? q ≠ none) :
    u.entryAt? q = t.entryAt? q :=
  h.resolve_right fun h => hq h.2.2 h.1

theorem touches (hstart : u.start = t.start) (h : ∀ q, t.Kept u way q) (places : List Place) :
    t.Touches u places where
  start := hstart
  directory q hq := by rw [(h q).entry (by simp [hq]), hq]
  content q _ := (h q).contentAt?_eq

end Kept

/-! ### Entries -/

theorem entryAt?_nil (t : FileTree) : t.entryAt? [] = some .directory := rfl

theorem entryAt?_set (t : FileTree) {place : Place} (h : place ≠ []) (entry : Entry) (q : Place) :
    (t.set place entry).entryAt? q = if place = q then some entry else t.entryAt? q := by
  by_cases hq : q = []
  · subst hq
    simp [entryAt?, h]
  · simp only [entryAt?, hq, if_false, set, Assoc.get?_insert]

theorem entryAt?_remove (t : FileTree) {place : Place} (h : place ≠ []) (q : Place) :
    (t.remove place).entryAt? q = if place = q then none else t.entryAt? q := by
  by_cases hq : q = []
  · subst hq
    simp [entryAt?, h]
  · have hfilter := Assoc.get?_filter (fun k => decide (k ≠ place)) q t.entries
    simp only [entryAt?, hq, if_false, remove, hfilter]
    by_cases hp : q = place
    · simp [hp]
    · have hp' : ¬ place = q := fun e => hp e.symm
      simp [hp, hp']

theorem contentAt?_eq_some_iff :
    t.contentAt? q = some content ↔ t.entryAt? q = some (.file content) := by
  rw [contentAt?]
  cases t.entryAt? q with
  | none => simp
  | some entry => cases entry <;> simp [Entry.content?]

theorem place_ne_nil_of_content (h : t.contentAt? q = some content) : q ≠ [] := by
  rintro rfl
  rw [contentAt?, t.entryAt?_nil] at h
  cases h

/-- Giving a file its content changes the content at its place. -/
theorem contentAt?_set (h : q ≠ []) :
    (t.set q (.file content)).contentAt? = Function.update t.contentAt? q (some content) := by
  funext other
  rw [contentAt?, t.entryAt?_set h]
  by_cases ho : q = other
  · subst ho
    simp [Entry.content?]
  · rw [if_neg ho, Function.update_of_ne (Ne.symm ho), contentAt?]

theorem ne_nil_of_entryAt? (h : t.entryAt? q ≠ some .directory) : q ≠ [] := by
  rintro rfl
  exact h t.entryAt?_nil

theorem ne_nil_of_none (h : t.entryAt? q = none) : q ≠ [] :=
  ne_nil_of_entryAt? (by rw [h]; exact nofun)

/-- A new entry where no directory is keeps all directories. -/
theorem extends_set {t : FileTree} {q : Place} (h : t.entryAt? q ≠ some .directory)
    (entry : Entry) : t.Extends (t.set q entry) := by
  refine ⟨rfl, fun other ho => ?_⟩
  rw [t.entryAt?_set (ne_nil_of_entryAt? h), if_neg]
  · exact ho
  · rintro rfl
    exact h ho

/-! ### Following paths -/

theorem checkDirectory_eq_ok_iff :
    t.checkDirectory q = .ok () ↔ t.entryAt? q = some .directory := by
  rw [checkDirectory]
  cases t.entryAt? q with
  | none => simp
  | some entry => cases entry <;> simp

theorem step_eq_ok_iff {segment : Text} : t.step q segment = .ok r
    ↔ (segment = ".." → t.entryAt? q = some .directory) ∧ r = Path.descend q segment := by
  rw [step]
  by_cases hup : segment = ".."
  · rw [if_pos hup, ← checkDirectory_eq_ok_iff]
    cases t.checkDirectory q <;> simp [Except.map, hup, eq_comm]
  · simp [hup, Except.map, eq_comm]

/-- A first segment is followed, and then the others from where it leads. -/
theorem foldlM_cons_eq_ok_iff {segment : Text} {rest : List Text} :
    (segment :: rest).foldlM t.step q = .ok r
      ↔ (segment = ".." → t.entryAt? q = some .directory)
        ∧ rest.foldlM t.step (Path.descend q segment) = .ok r := by
  rw [List.foldlM_cons]
  cases hstep : t.step q segment with
  | error e =>
    refine iff_of_false (fun h => by cases h) fun ⟨hup, _⟩ => ?_
    rw [step_eq_ok_iff.mpr ⟨hup, rfl⟩] at hstep
    cases hstep
  | ok next =>
    obtain ⟨hup, rfl⟩ := step_eq_ok_iff.mp hstep
    exact (and_iff_right hup).symm

/-- Where a path leads is a matter of its text. -/
theorem eq_foldl_of_foldlM {segments : List Text} (h : segments.foldlM t.step q = .ok r) :
    r = segments.foldl Path.descend q := by
  induction segments generalizing q with
  | nil =>
    cases h
    rfl
  | cons segment rest ih => exact ih (foldlM_cons_eq_ok_iff.mp h).2

theorem foldlM_step_of_extends (hext : t.Extends u) {segments : List Text}
    (h : segments.foldlM t.step q = .ok r) : segments.foldlM u.step q = .ok r := by
  induction segments generalizing q with
  | nil => exact h
  | cons segment rest ih =>
    obtain ⟨hup, hrest⟩ := foldlM_cons_eq_ok_iff.mp h
    exact foldlM_cons_eq_ok_iff.mpr ⟨fun hs => hext.directory _ (hup hs), ih hrest⟩

/-- Along directories, every segment can be followed. -/
theorem foldlM_step_of_directories {segments : List Text}
    (h : ∀ r ∈ Path.wayFrom q segments, t.entryAt? r = some .directory) :
    segments.foldlM t.step q = .ok (segments.foldl Path.descend q) := by
  induction segments generalizing q with
  | nil => rfl
  | cons segment rest ih =>
    obtain ⟨hhere, hrest⟩ := List.forall_mem_cons.mp h
    exact foldlM_cons_eq_ok_iff.mpr ⟨fun _ => hhere, ih hrest⟩

/-- Names can be followed whatever is there. -/
theorem foldlM_step_of_downward {segments : List Text} (h : (".." : Text) ∉ segments) :
    segments.foldlM t.step q = .ok (segments.foldl Path.descend q) := by
  induction segments generalizing q with
  | nil => rfl
  | cons segment rest ih =>
    obtain ⟨hs, hrest⟩ := not_or.mp (List.mem_cons.not.mp h)
    exact foldlM_cons_eq_ok_iff.mpr ⟨fun hup => absurd hup.symm hs, ih hrest⟩

theorem place_eq_of_find (h : t.find p = .ok q) : q = t.place p := eq_foldl_of_foldlM h

theorem Leads.of_extends (h : t.Leads p) (hext : t.Extends u) : u.Leads p := by
  have hfind := foldlM_step_of_extends hext h
  rw [Leads, find, hext.start, hext.place]
  exact hfind

/-- A path that never goes up can be followed in any tree. -/
theorem leads_of_downward (h : (".." : Text) ∉ p.segments) : t.Leads p := foldlM_step_of_downward h

/-- Where the directory of a path stands, the path can be followed. -/
theorem leads_of_stands (h : t.Stands p.parent) : t.Leads p := by
  rw [Leads, find, place, Path.placeFrom]
  rcases List.eq_nil_or_concat p.segments with hnil | ⟨init, name, hsegments⟩
  · rw [hnil]
    rfl
  · rw [List.concat_eq_append] at hsegments
    have hway : p.parent.way t.start = Path.wayFrom (p.origin t.start) init := by
      rw [Path.way, Path.parent, hsegments, List.dropLast_concat]
      rfl
    rw [Stands, hway] at h
    have hlast := h _ (Path.foldl_mem_wayFrom (p.origin t.start) init)
    rw [hsegments, List.foldlM_append, foldlM_step_of_directories h, List.foldl_append]
    exact foldlM_cons_eq_ok_iff.mpr ⟨fun _ => hlast, rfl⟩

theorem lookup?_of_leads (h : t.Leads p) : t.lookup? p = t.entryAt? (t.place p) := by
  rw [lookup?, h]

theorem content?_of_leads (h : t.Leads p) : t.content? p = t.contentAt? (t.place p) := by
  rw [content?, lookup?_of_leads h, contentAt?]

theorem leads_of_lookup? (h : t.lookup? p ≠ none) : t.Leads p := by
  rw [lookup?] at h
  cases hfind : t.find p with
  | error e =>
    rw [hfind] at h
    exact absurd rfl h
  | ok q => rw [Leads, hfind, place_eq_of_find hfind]

theorem content?_eq_some_iff :
    t.content? p = some content ↔ t.Leads p ∧ t.contentAt? (t.place p) = some content := by
  constructor
  · intro h
    have hleads : t.Leads p := leads_of_lookup? fun hnone => by
      rw [content?, hnone] at h
      cases h
    exact ⟨hleads, content?_of_leads hleads ▸ h⟩
  · rintro ⟨hleads, h⟩
    rwa [content?_of_leads hleads]

/-- A file that a path leads to is found unless it is one of those that changed. -/
theorem Touches.content?_eq_some {places : List Place} (ht : t.Touches u places)
    (hp : t.place p ∉ places) (h : t.content? p = some content) : u.content? p = some content := by
  obtain ⟨hleads, hcontent⟩ := content?_eq_some_iff.mp h
  refine content?_eq_some_iff.mpr ⟨hleads.of_extends ht.toExtends, ?_⟩
  rw [ht.place, ht.content _ hp, hcontent]

/-- Where no file is, there is none to be found. -/
theorem content?_of_none (h : t.contentAt? (t.place p) = none) : t.content? p = none := by
  refine Option.eq_none_iff_forall_ne_some.mpr fun content hc => ?_
  rw [(content?_eq_some_iff.mp hc).2] at h
  cases h

/-- Making directories brings no content to light at the end of a settled path. -/
theorem Settled.content?_eq (h : t.Settled p) (hext : t.Extends u)
    (hcontent : u.contentAt? (t.place p) = t.contentAt? (t.place p)) :
    u.content? p = t.content? p := by
  rcases h with hleads | hnone
  · rw [content?_of_leads hleads, content?_of_leads (hleads.of_extends hext), hext.place, hcontent]
  · rw [content?_of_none hnone, content?_of_none (by rw [hext.place, hcontent, hnone])]

theorem Settled.of_touches {places : List Place} (h : t.Settled p) (ht : t.Touches u places)
    (hp : t.place p ∉ places) : u.Settled p :=
  h.imp (fun hleads => hleads.of_extends ht.toExtends) fun hnone => by
    rw [ht.place, ht.content _ hp, hnone]

theorem read_eq_ok_iff : t.read p = .ok content ↔ t.content? p = some content := by
  rw [read, content?]
  cases t.lookup? p with
  | none => simp
  | some entry => cases entry <;> simp [Entry.content?]

/-! ### Directories -/

theorem start_makeAll (t : FileTree) (places : List Place) :
    (t.makeAll places).1.start = t.start := by
  induction places generalizing t with
  | nil => rfl
  | cons here rest ih =>
    rw [makeAll]
    split
    · exact ih t
    · rfl
    · exact ih _

/-- Directories are made in these places only, and only where nothing is. -/
theorem kept_makeAll (t : FileTree) (places : List Place) (q : Place) :
    t.Kept (t.makeAll places).1 places q := by
  induction places generalizing t with
  | nil => exact .refl t [] q
  | cons here rest ih =>
    rw [makeAll]
    split
    · exact (ih t).mono (List.subset_cons_self _ _)
    · exact .refl t _ q
    next hnone =>
      have hset := t.entryAt?_set (ne_nil_of_none hnone) .directory q
      refine Kept.trans ?_ ((ih _).mono (List.subset_cons_self _ _))
      by_cases hq : here = q
      · subst hq
        exact .inr ⟨hnone, by rw [hset, if_pos rfl], List.mem_cons_self⟩
      · exact .inl (by rw [hset, if_neg hq])

theorem touches_makeAll (t : FileTree) (places more : List Place) :
    t.Touches (t.makeAll places).1 more :=
  Kept.touches (start_makeAll t places) (kept_makeAll t places) more

/-- Without a file in the way, all of them are directories then. -/
theorem directories_of_makeAll {places : List Place} (h : (t.makeAll places).2 = .ok ()) :
    ∀ q ∈ places, (t.makeAll places).1.entryAt? q = some .directory := by
  induction places generalizing t with
  | nil => exact List.forall_mem_nil _
  | cons here rest ih =>
    rw [makeAll] at h ⊢
    cases he : t.entryAt? here with
    | none =>
      simp only [he] at h ⊢
      refine List.forall_mem_cons.mpr ⟨?_, ih h⟩
      refine (touches_makeAll _ rest []).directory _ ?_
      rw [t.entryAt?_set (ne_nil_of_none he), if_pos rfl]
    | some entry =>
      cases entry with
      | file content =>
        simp only [he] at h
        cases h
      | directory =>
        simp only [he] at h ⊢
        exact List.forall_mem_cons.mpr ⟨(touches_makeAll t rest []).directory _ he, ih h⟩

theorem makeAll_of_directories {places : List Place}
    (h : ∀ q ∈ places, t.entryAt? q = some .directory) : t.makeAll places = (t, .ok ()) := by
  induction places with
  | nil => rfl
  | cons here rest ih =>
    obtain ⟨hhere, hrest⟩ := List.forall_mem_cons.mp h
    rw [makeAll]
    simp only [hhere]
    exact ih hrest

theorem kept_of_makeDirectory {done : Except FileError Unit} (h : t.makeDirectory p = (u, done))
    (q : Place) : t.Kept u (p.way t.start) q := by
  have hkept := kept_makeAll t (p.way t.start) q
  rwa [show t.makeAll (p.way t.start) = (u, done) from h] at hkept

/-- The directories on the way are made without a change to any file. -/
theorem touches_of_makeDirectory {done : Except FileError Unit} (h : t.makeDirectory p = (u, done))
    (places : List Place) : t.Touches u places := by
  have htouches := touches_makeAll t (p.way t.start) places
  rwa [show t.makeAll (p.way t.start) = (u, done) from h] at htouches

theorem stands_of_makeDirectory (h : t.makeDirectory p = (u, .ok ())) : u.Stands p := by
  have hall := directories_of_makeAll (congrArg Prod.snd h)
  have hstart := start_makeAll t (p.way t.start)
  rw [show t.makeAll (p.way t.start) = (u, .ok ()) from h] at hall hstart
  rw [Stands, show u.start = t.start from hstart]
  exact hall

/-- Where the directories are there already, nothing is made. -/
theorem makeDirectory_of_stands (h : t.Stands p) : t.makeDirectory p = (t, .ok ()) :=
  makeAll_of_directories h

/-! ### Files -/

theorem put_eq_ok (h : t.put q content = .ok u) :
    t.entryAt? q ≠ some .directory ∧ u = t.set q (.file content) := by
  rw [put] at h
  cases he : t.entryAt? q with
  | none =>
    simp only [he] at h
    obtain ⟨-, -, rfl⟩ := exists_of_map_eq_ok h
    exact ⟨nofun, rfl⟩
  | some entry =>
    cases entry with
    | directory =>
      simp only [he] at h
      cases h
    | file old =>
      simp only [he] at h
      cases h
      exact ⟨nofun, rfl⟩

/-- A file is written into a directory, unless a directory is in its place. -/
theorem put_ok (hplace : t.entryAt? q ≠ some .directory)
    (hparent : t.entryAt? q.dropLast = some .directory) (content : List UInt8) :
    t.put q content = .ok (t.set q (.file content)) := by
  rw [put]
  cases he : t.entryAt? q with
  | none =>
    simp only [checkDirectory_eq_ok_iff.mpr hparent]
    rfl
  | some entry =>
    cases entry with
    | directory => exact absurd he hplace
    | file old => rfl

theorem write_eq_ok_iff :
    t.write p content = .ok u ↔ t.Leads p ∧ t.put (t.place p) content = .ok u := by
  rw [write, Leads]
  cases hfind : t.find p with
  | error e => simp [Except.bind]
  | ok q =>
    cases place_eq_of_find hfind
    simp [Except.bind]

/-- A file is written where its path leads, if a directory is there for it. -/
theorem write_ok (hleads : t.Leads p) (hplace : t.entryAt? (t.place p) ≠ some .directory)
    (hparent : t.entryAt? (t.place p).dropLast = some .directory) (content : List UInt8) :
    t.write p content = .ok (t.set (t.place p) (.file content)) :=
  write_eq_ok_iff.mpr ⟨hleads, put_ok hplace hparent content⟩

theorem append_eq_ok_iff : t.append p content = .ok u ↔ t.Leads p
    ∧ t.put (t.place p) ((t.contentAt? (t.place p)).getD [] ++ content) = .ok u := by
  rw [append, Leads]
  cases hfind : t.find p with
  | error e => simp [Except.bind]
  | ok q =>
    cases place_eq_of_find hfind
    simp [Except.bind]

/-- A file can be opened to write to it: the path can be followed, and the file is there or the
directory is there to make it in. -/
def Openable (t : FileTree) (p : Path) : Prop :=
  t.Leads p ∧ ((∃ old, t.contentAt? (t.place p) = some old)
    ∨ t.entryAt? (t.place p) = none ∧ t.entryAt? (t.place p).dropLast = some .directory)

theorem exists_put_iff (content : List UInt8) : (∃ u, t.put q content = .ok u)
    ↔ (∃ old, t.contentAt? q = some old)
      ∨ t.entryAt? q = none ∧ t.entryAt? q.dropLast = some .directory := by
  rw [put]
  cases he : t.entryAt? q with
  | none =>
    rw [← checkDirectory_eq_ok_iff]
    cases t.checkDirectory q.dropLast <;> simp [contentAt?, he, Except.map]
  | some entry => cases entry <;> simp [contentAt?, Entry.content?, he]

theorem exists_append_iff (content : List UInt8) :
    (∃ u, t.append p content = .ok u) ↔ t.Openable p := by
  simp only [append_eq_ok_iff, exists_and_left, exists_put_iff, Openable]

theorem entryAt?_put (h : t.put r content = .ok u) (q : Place) :
    u.entryAt? q = if r = q then some (.file content) else t.entryAt? q := by
  obtain ⟨hdir, rfl⟩ := put_eq_ok h
  rw [t.entryAt?_set (ne_nil_of_entryAt? hdir)]

theorem entryAt?_write (h : t.write p content = .ok u) (q : Place) :
    u.entryAt? q = if t.place p = q then some (.file content) else t.entryAt? q :=
  entryAt?_put (write_eq_ok_iff.mp h).2 q

theorem put_spec (h : t.put q content = .ok u) :
    t.Extends u ∧ u.contentAt? = Function.update t.contentAt? q (some content) := by
  obtain ⟨hdir, rfl⟩ := put_eq_ok h
  exact ⟨extends_set hdir _, contentAt?_set (ne_nil_of_entryAt? hdir)⟩

theorem write_spec (h : t.write p content = .ok u) :
    t.Extends u ∧ u.contentAt? = Function.update t.contentAt? (t.place p) (some content) :=
  put_spec (write_eq_ok_iff.mp h).2

theorem append_spec (h : t.append p content = .ok u) :
    t.Extends u ∧ u.contentAt? = Function.update t.contentAt? (t.place p)
      (some ((t.contentAt? (t.place p)).getD [] ++ content)) :=
  put_spec (append_eq_ok_iff.mp h).2

/-- Adding nothing to a file that is there changes nothing. -/
theorem append_nil (hleads : t.Leads p) (h : t.contentAt? (t.place p) = some content) :
    t.append p [] = .ok t := by
  have he : t.entryAt? (t.place p) = some (.file content) := contentAt?_eq_some_iff.mp h
  have hget : Assoc.get? (t.place p) t.entries = some (.file content) := by
    unfold entryAt? at he
    split at he
    · cases he
    · exact he
  refine append_eq_ok_iff.mpr ⟨hleads, ?_⟩
  rw [h, Option.getD_some, List.append_nil, put]
  simp only [he, set, Assoc.insert_of_get? hget]

/-- A file is moved by writing its content to the new place and dropping the old one. -/
theorem replace_eq_ok {source target : Path} (h : t.replace source target = .ok u) :
    ∃ content written, t.contentAt? (t.place source) = some content
      ∧ t.write target content = .ok written ∧ u = written.remove (t.place source) := by
  unfold replace at h
  obtain ⟨q, hfind, h⟩ := exists_of_bind_eq_ok h
  obtain ⟨content, hread, h⟩ := exists_of_bind_eq_ok h
  obtain ⟨written, hwrite, rfl⟩ := exists_of_map_eq_ok h
  cases place_eq_of_find hfind
  exact ⟨content, written, (content?_eq_some_iff.mp (read_eq_ok_iff.mp hread)).2, hwrite, rfl⟩

/-- Where the content of one path is written to another, it is moved there. -/
theorem replace_ok {source target : Path} (hs : t.Leads source)
    (hc : t.contentAt? (t.place source) = some content) (hw : t.write target content = .ok u) :
    t.replace source target = .ok (u.remove (t.place source)) := by
  have hread : t.read source = .ok content := read_eq_ok_iff.mpr (content?_eq_some_iff.mpr ⟨hs, hc⟩)
  rw [replace, hs, hread]
  simp only [Except.bind, hw, Except.map]

theorem entryAt?_replace {source target : Path} (h : t.replace source target = .ok u) :
    ∃ content, t.contentAt? (t.place source) = some content
      ∧ ∀ q, u.entryAt? q = if t.place source = q then none
        else if t.place target = q then some (.file content) else t.entryAt? q := by
  obtain ⟨content, written, hsource, hwrite, rfl⟩ := replace_eq_ok h
  refine ⟨content, hsource, fun q => ?_⟩
  rw [written.entryAt?_remove (place_ne_nil_of_content hsource), entryAt?_write hwrite]

/-- A moved file is at its new place only. -/
theorem replace_spec {source target : Path} (h : t.replace source target = .ok u)
    (hne : t.place source ≠ t.place target) :
    t.Extends u ∧ ∃ content, t.contentAt? (t.place source) = some content
      ∧ u.contentAt? = Function.update (Function.update t.contentAt? (t.place target)
          (some content)) (t.place source) none := by
  obtain ⟨content, written, hsource, hwrite, rfl⟩ := replace_eq_ok h
  have hnil := place_ne_nil_of_content hsource
  obtain ⟨hext, hcontent⟩ := write_spec hwrite
  have hfile : written.entryAt? (t.place source) = some (.file content) := by
    rw [← contentAt?_eq_some_iff, hcontent, Function.update_of_ne hne, hsource]
  have hremove : written.Extends (written.remove (t.place source)) := by
    refine ⟨rfl, fun q hq => ?_⟩
    rw [written.entryAt?_remove hnil, if_neg]
    · exact hq
    · rintro rfl
      rw [hfile] at hq
      cases hq
  refine ⟨hext.trans hremove, content, hsource, ?_⟩
  rw [← hcontent]
  funext q
  rw [contentAt?, written.entryAt?_remove hnil]
  by_cases hq : t.place source = q
  · subst hq
    simp
  · rw [if_neg hq, Function.update_of_ne (Ne.symm hq), contentAt?]

end FileTree

end AuthorWatch
