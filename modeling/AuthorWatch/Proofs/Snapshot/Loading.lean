import AuthorWatch.Proofs.Json.Texts
import AuthorWatch.Proofs.Snapshot.Survival

/-! Loading any bytes. A file gives all of its entries or none of them, what it gives can be
saved, and no other file has a part in it. -/

namespace AuthorWatch

/-! ### Entries of documents -/

namespace Json

/-- What every value of a document is: its integers are short, and its texts have encodings. -/
structure Clean (v : Json) : Prop where
  short : v.Short
  encodable : v.Encodable

variable {v : Json} {items : List Json} {members : List (Text × Json)} {field : Text × Json}

theorem Clean.item (h : (array items).Clean) (hv : v ∈ items) : v.Clean :=
  ⟨shortItems_iff.mp h.short v hv, forall_itemTexts_iff.mp h.encodable v hv⟩

theorem Clean.key (h : (object members).Clean) (hf : field ∈ members) :
    field.1.encodable = true := (forall_memberTexts_iff.mp h.encodable field hf).1

theorem Clean.member (h : (object members).Clean) (hf : field ∈ members) : field.2.Clean :=
  ⟨shortMembers_iff.mp h.short field hf, (forall_memberTexts_iff.mp h.encodable field hf).2⟩

end Json

namespace Check

variable {α : Type} {a : α} {members : List (Text × Json)} {key : Text}

theorem ofExcept_eq_passed_iff {x : Except Fault α} : ofExcept x = passed a ↔ x = .ok a := by
  cases x <;> simp [ofExcept]

theorem encodable_of_text {t : Text} (hm : (Json.object members).Clean)
    (h : required text key members = passed t) : t.encodable = true := by
  obtain ⟨⟨_, v⟩, hmember, hv⟩ := exists_mem_of_required h
  have htext := ofExcept_eq_passed_iff.mp hv
  cases v with
  | text s =>
    cases htext
    exact (hm.member hmember).encodable t (List.mem_singleton_self t)
  | _ => cases htext

theorem fits_of_integer {n : ℤ} (hm : (Json.object members).Clean)
    (h : required integer key members = passed n) : Json.Fits n := by
  obtain ⟨member, hmember, hv⟩ := exists_mem_of_required h
  exact Json.fits_of_toInteger (hm.member hmember).short (ofExcept_eq_passed_iff.mp hv)

theorem fits_of_atLeast {bound n : ℤ} (hm : (Json.object members).Clean)
    (h : required (integerAtLeast bound) key members = passed n) : Json.Fits n := by
  obtain ⟨member, hmember, hv⟩ := exists_mem_of_required h
  exact Json.fits_of_integerAtLeast (hm.member hmember).short hv

end Check

theorem Node.encodable_of_ofJson {v : Json} {n : Node} (hv : v.Clean)
    (h : ofJson v = .passed n) : n.Encodable := by
  obtain ⟨members, rfl, h₂⟩ := Check.exists_of_object h
  obtain ⟨_, nodeId, h₁, hid, rfl⟩ := Check.seq_eq_passed_iff.mp h₂
  obtain ⟨name, hname, rfl⟩ := Check.map_eq_passed_iff.mp h₁
  exact ⟨Check.encodable_of_text hv hname, Check.encodable_of_text hv hid⟩

theorem Reporter.clean_of_ofJson {v : Json} {x : Reporter} (hv : v.Clean)
    (h : ofJson v = .passed x) : x.Encodable ∧ Json.Fits x.ordinal ∧ Json.Fits x.seen := by
  obtain ⟨members, rfl, hordinal, hname, hid, hseen⟩ := fields_of_ofJson h
  exact ⟨⟨Check.encodable_of_text hv hname, Check.encodable_of_text hv hid⟩,
    Check.fits_of_atLeast hv hordinal, Check.fits_of_integer hv hseen⟩

namespace Record

theorem clean_of_reportersOfJson {v : Json} {xs : List Reporter} (hv : v.Clean)
    (h : reportersOfJson v = .passed xs) :
    ∀ x ∈ xs, x.Encodable ∧ Json.Fits x.ordinal ∧ Json.Fits x.seen := by
  cases v with
  | array items =>
    intro x hx
    obtain ⟨w, hw, hpassed⟩ := Check.exists_mem_of_each h hx
    exact Reporter.clean_of_ofJson (hv.item hw) hpassed
  | _ => cases h

theorem fits_of_orNull {v : Json} {lowest : Option ℤ} (hv : v.Clean)
    (h : Check.ofExcept (v.orNull Json.toInteger) = .passed lowest) :
    ∀ time ∈ lowest, Json.Fits time := by
  have hok := Check.ofExcept_eq_passed_iff.mp h
  unfold Json.orNull at hok
  split at hok
  · cases hok
    nofun
  · cases hn : v.toInteger with
    | error e => rw [hn] at hok; cases hok
    | ok n =>
      rw [hn] at hok
      cases hok
      rintro _ ⟨⟩
      exact Json.fits_of_toInteger hv.short hn

/-- An entry of a document that passes can be saved. -/
theorem savable_of_ofJson {v : Json} {r : Record} (hv : v.Clean) (h : ofJson v = .passed r) :
    r.Savable := by
  obtain ⟨members, rfl, hheight, hfirst, hlowest, hreporters, hcount, -⟩ := fields_of_ofJson h
  have hclean : ∀ x ∈ r.reporters, x.Encodable ∧ Json.Fits x.ordinal ∧ Json.Fits x.seen := by
    obtain hnone | ⟨member, hmember, hpassed⟩ := Check.exists_mem_of_optional hreporters
    · rw [hnone]
      exact List.forall_mem_nil _
    · exact clean_of_reportersOfJson (hv.member hmember) hpassed
  have hlow : ∀ time ∈ r.lowest, Json.Fits time := by
    obtain hnone | ⟨member, hmember, hpassed⟩ := Check.exists_mem_of_optional hlowest
    · rw [hnone]
      nofun
    · exact fits_of_orNull (hv.member hmember) hpassed
  have hfits : Json.Fits r.count := by
    obtain hzero | ⟨member, hmember, hpassed⟩ := Check.exists_mem_of_optional hcount
    · rw [hzero]
      exact Json.fits_of_lt (by decide)
    · exact Json.fits_of_integerAtLeast (hv.member hmember).short hpassed
  exact ⟨sound_of_ofJson h, ⟨Check.fits_of_atLeast hv hheight, Check.fits_of_integer hv hfirst,
    hlow, hfits, fun x hx => (hclean x hx).2⟩, fun x hx => (hclean x hx).1⟩

end Record

/-! ### Restoring -/

theorem mapM_restore {α β : Type} {restore : β → Except RestoreError α} {write : α → β}
    (h : ∀ a, restore (write a) = .ok a) (xs : List α) : (xs.map write).mapM restore = .ok xs := by
  have hpure : restore ∘ write = fun a => pure (id a) := funext h
  rw [List.mapM_map, hpure, List.mapM_pure, List.map_id]
  rfl

theorem Node.restore_toJson (n : Node) : restore n.toJson = .ok n := rfl

theorem Reporter.restore_toJson (x : Reporter) : restore x.toJson = .ok x := rfl

theorem Record.restore_toJson (r : Record) : restore r.toJson = .ok r := by
  obtain ⟨height, firstSeen, lowest, reporters, count, finalized⟩ := r
  have hreporters : restoreReporters (some (.array (reporters.map Reporter.toJson)))
      = .ok reporters := mapM_restore Reporter.restore_toJson reporters
  -- whether there is a lowest time decides how the field before the reporters is read
  cases lowest
  all_goals
    change (restoreReporters (some (.array (reporters.map Reporter.toJson)))).bind _ = _
    rw [hreporters]
    rfl

theorem Registry.restore_toJson {r : Registry} {members : List (Text × Json)}
    (h : r.toJson = .object members) : restore members = .ok r := by
  cases h
  have hentries : ∀ entries : List (Text × Node),
      (entries.map fun entry => (entry.1, entry.2.toJson)).mapM
        (fun member => (member.1, ·) <$> Node.restore member.2) = .ok entries :=
    mapM_restore fun entry => by
      rw [Node.restore_toJson]
      rfl
  exact (congrArg _ (hentries r.entries)).trans (congrArg Except.ok r.ofPairs_entries)

theorem Ledger.restore_toJson {l : Ledger} {members : List (Text × Json)}
    (h : l.toJson = .object members) : restore members = .ok l := by
  cases h
  have hentries : ∀ entries : List (Text × Record),
      (entries.map fun entry => (entry.1, entry.2.toJson)).mapM
        (fun member => (member.1, ·) <$> Record.restore member.2) = .ok entries :=
    mapM_restore fun entry => by
      rw [Record.restore_toJson]
      rfl
  exact (congrArg _ (hentries l.entries)).trans (congrArg Except.ok l.ofPairs_entries)

namespace Snapshot

variable {α : Type} {read : Json → Check α} {files : FileTree} {path : Path}
  {members : List (Text × Json)} {m : OrderedMap α}

/-! ### Documents of files -/

/-- The text of a file is a JSON object with these members, in the order in which they stand
there. -/
def Holds (files : FileTree) (path : Path) (members : List (Text × Json)) : Prop :=
  ∃ bytes t, files.read path = .ok bytes ∧ Utf8.decode? bytes = some t
    ∧ Json.read .document t.withPlainLineEnds = .ok (.object members)

theorem Holds.clean (h : Holds files path members) : (Json.object members).Clean := by
  obtain ⟨bytes, t, -, ht, hread⟩ := h
  exact ⟨Json.short_of_read hread, Json.encodable_of_read
    (Text.encodable_withPlainLineEnds (Utf8.encodable_of_decode? ht)) hread⟩

/-- A blank character does not open an object, and nothing else gives one. -/
theorem not_isBlank_of_read {t : Text} (h : Json.read .document t = .ok (.object members)) :
    t.isBlank = false := by
  refine Bool.eq_false_iff.mpr fun hblank => ?_
  have hall := List.all_eq_true.mp hblank
  have hhead : ∀ g ∈ (Json.skipSpace t).head?,
      g ≠ .char '"' ∧ g ≠ .char '[' ∧ g ≠ .char '\x7b' := by
    intro g hg
    have hblank := hall g ((Json.suffix_skipSpace t).subset (List.mem_of_mem_head? hg))
    refine ⟨?_, ?_, ?_⟩ <;> rintro rfl <;> cases hblank
  unfold Json.read at h
  rw [Json.value_atom .document _ _ hhead] at h
  split at h
  · cases h
  next v rest hatom =>
    split at h
    · cases h
      obtain ⟨⟨word, hword⟩, -⟩ | ⟨negative, u, hnumber, -⟩ := Json.cases_of_atom hatom
      · simp [Json.words] at hword
      · obtain ⟨n, hn⟩ | ⟨x, hx⟩ := Json.cases_of_number hnumber
        · cases hn
        · cases hx
    · cases h

/-- The entries that a file with a document holds. -/
theorem held_of_holds (h : Holds files path members) :
    held read files path = match entries read (.object members) with
      | .passed m => m
      | .failed _ => .empty := by
  obtain ⟨bytes, t, hbytes, ht, hdocument⟩ := h
  rw [held, FileTree.read_eq_ok_iff.mp hbytes, Option.bind_some, ofBytes, ht, Option.bind_some,
    ofText, not_isBlank_of_read hdocument, if_neg Bool.false_ne_true, hdocument]
  dsimp only
  cases entries read (.object members) <;> rfl

/-- A file is loaded as nothing, or as the entries of its document. -/
theorem cases_held (read : Json → Check α) (files : FileTree) (path : Path) :
    held read files path = .empty ∨ ∃ members, Holds files path members
      ∧ entries read (.object members) = .passed (held read files path) := by
  rw [held]
  cases hb : (files.content? path).bind (ofBytes read) with
  | none => exact .inl rfl
  | some m =>
    obtain ⟨bytes, hbytes, hm⟩ := Option.bind_eq_some_iff.mp hb
    obtain rfl | ⟨t, members, ht, hdocument, hentries⟩ := cases_of_ofBytes hm
    · exact .inl rfl
    · exact .inr ⟨members, ⟨bytes, t, FileTree.read_eq_ok_iff.mpr hbytes, ht, hdocument⟩, hentries⟩

/-! ### Entries of a document -/

theorem keys_of_entries (h : entries read (.object members) = .passed m) :
    m.keys = (Assoc.keys members).eraseDups := by
  obtain ⟨pairs, rfl, hpairs⟩ := entries_eq_passed_iff.mp h
  rw [Assoc.keys_of_matches hpairs]
  exact Assoc.keys_insertAll pairs

/-- The last member of a key counts. -/
theorem get?_of_entries (h : entries read (.object members) = .passed m) {key : Text} {v : Json}
    (hv : Json.member? key members = some v) : ∃ a, read v = .passed a ∧ m.get? key = some a := by
  obtain ⟨pairs, rfl, hpairs⟩ := entries_eq_passed_iff.mp h
  obtain ⟨a, ha, hget⟩ := Assoc.get?_of_matches hpairs.reverse hv
  exact ⟨a, ha, (Assoc.get?_insertAll key pairs).trans hget⟩

theorem entries_pass_iff : (∃ m, entries read (.object members) = .passed m)
    ↔ ∀ member ∈ members, ∃ a, read member.2 = .passed a := by
  have hpairs : (∃ m, entries read (.object members) = .passed m)
      ↔ ∃ pairs, Check.each (fun member => (member.1, ·) <$> read member.2) members
          = .passed pairs := by
    simp only [entries, Check.map_eq_passed_iff]
    constructor
    · rintro ⟨_, pairs, h, -⟩
      exact ⟨pairs, h⟩
    · rintro ⟨pairs, h⟩
      exact ⟨_, pairs, h, rfl⟩
  rw [hpairs, Check.exists_each_iff]
  simp [Check.map_eq_passed_iff]

/-! ### All or nothing -/

/-- What a load gives for a file: all of its entries or none. -/
structure AllOrNothing (read : Json → Check α) (files : FileTree) (path : Path)
    (m : OrderedMap α) : Prop where
  /-- The map is empty, or it has the keys of the file, in the order in which they come first. -/
  whole : m = .empty ∨ ∃ members, Holds files path members ∧ m.keys = (Assoc.keys members).eraseDups
  /-- If every member passes then all are there, and the last of a key is the one that counts. -/
  all : ∀ members, Holds files path members → (∀ member ∈ members, ∃ a, read member.2 = .passed a) →
    m.keys = (Assoc.keys members).eraseDups
      ∧ ∀ key v, Json.member? key members = some v → ∃ a, read v = .passed a ∧ m.get? key = some a
  /-- A single member that does not pass leaves nothing. -/
  nothing : ∀ members, Holds files path members →
    (∃ member ∈ members, ∀ a, read member.2 ≠ .passed a) → m = .empty

theorem allOrNothing_held (read : Json → Check α) (files : FileTree) (path : Path) :
    AllOrNothing read files path (held read files path) where
  whole := by
    refine (cases_held read files path).imp_right ?_
    rintro ⟨members, hmembers, hentries⟩
    exact ⟨members, hmembers, keys_of_entries hentries⟩
  all members hmembers hpass := by
    obtain ⟨m, hentries⟩ := entries_pass_iff.mpr hpass
    have hheld : held read files path = m := by rw [held_of_holds hmembers, hentries]
    rw [hheld]
    exact ⟨keys_of_entries hentries, fun key v => get?_of_entries hentries⟩
  nothing members hmembers hfails := by
    obtain ⟨member, hmember, hfail⟩ := hfails
    rw [held_of_holds hmembers]
    cases hentries : entries read (.object members) with
    | failed => rfl
    | passed m =>
      obtain ⟨a, ha⟩ := entries_pass_iff.mp ⟨m, hentries⟩ member hmember
      exact absurd ha (hfail a)

/-- Whatever is loaded has a clean member of a document behind it. -/
theorem exists_clean_of_held {entry : Text × α} (h : entry ∈ (held read files path).entries) :
    entry.1.encodable = true ∧ ∃ v, v.Clean ∧ read v = .passed entry.2 := by
  obtain hempty | ⟨members, hmembers, hentries⟩ := cases_held read files path
  · rw [hempty] at h
    cases h
  · obtain ⟨member, hmember, hkey, hpassed⟩ := exists_of_entries hentries entry h
    rw [← hkey]
    exact ⟨hmembers.clean.key hmember, member.2, hmembers.clean.member hmember, hpassed⟩

theorem savable_loadRegistry (files : FileTree) (path : Path) :
    (loadRegistry files path).1.Savable := by
  rw [loadRegistry, load_fst]
  intro entry hentry
  obtain ⟨hkey, v, hv, hpassed⟩ := exists_clean_of_held hentry
  exact ⟨hkey, Node.encodable_of_ofJson hv hpassed⟩

theorem savable_loadLedger (files : FileTree) (path : Path) :
    (loadLedger files path).1.Savable := by
  rw [loadLedger, load_fst]
  intro entry hentry
  obtain ⟨hkey, v, hv, hpassed⟩ := exists_clean_of_held hentry
  exact ⟨hkey, Record.savable_of_ofJson hv hpassed⟩

/-! ### Loading -/

/-- What loading a file comes to, whatever the file and the other files hold. -/
structure Loads (read : Json → Check α) (toJson : OrderedMap α → Json)
    (restore : List (Text × Json) → Except RestoreError (OrderedMap α))
    (load : FileTree → Path → OrderedMap α × List Notice) (files : FileTree) (path : Path) :
    Prop where
  content : AllOrNothing read files path (load files path).1
  /-- The entries that passed are restored without an error. -/
  restored : ∀ members, toJson (load files path).1 = .object members →
    restore members = .ok (load files path).1
  /-- Only the content of the file itself counts. -/
  alone : ∀ later : FileTree, later.content? path = files.content? path →
    (load later path).1 = (load files path).1
  /-- What was loaded can be saved anywhere, and loaded again as it is. -/
  survives : Survives toJson load (load files path).1

theorem loads_of_survives (kind : SnapshotKind) {toJson : OrderedMap α → Json}
    {restore : List (Text × Json) → Except RestoreError (OrderedMap α)}
    (hrestore : ∀ {m members}, toJson m = .object members → restore members = .ok m)
    (hsurvives : Survives toJson (load read kind) (load read kind files path).1) :
    Loads read toJson restore (load read kind) files path where
  content := by
    rw [load_fst]
    exact allOrNothing_held read files path
  restored _ h := hrestore h
  alone later hcontent := by rw [load_fst, load_fst, held_of_content hcontent]
  survives := hsurvives

/-- Whatever bytes the two files hold, and whether they are there at all: each of them is loaded
as all of its entries or as nothing, without a look at the other one. No height, count or ordinal
that is loaded is negative, no text holds a lone surrogate, and what is loaded is saved and loaded
again as it is. -/
theorem loads_all_or_nothing (files : FileTree) (nodes blocks : Path) :
    Loads Node.ofJson Registry.toJson Registry.restore loadRegistry files nodes
    ∧ (loadRegistry files nodes).1.Savable
    ∧ Loads Record.ofJson Ledger.toJson Ledger.restore loadLedger files blocks
    ∧ (loadLedger files blocks).1.Savable := by
  have hregistry := savable_loadRegistry files nodes
  have hledger := savable_loadLedger files blocks
  refine ⟨loads_of_survives .nodes Registry.restore_toJson ?_, hregistry,
    loads_of_survives .blocks Ledger.restore_toJson ?_, hledger⟩
  · have hwritable := Registry.isWritable_toJson hregistry
    exact survives_of_ofBytes .nodes hwritable (ofBytes_registry (Json.encodable_write hwritable))
  · have hwritable := Ledger.isWritable_toJson hledger
    refine survives_of_ofBytes .blocks hwritable
      (ofBytes_ledger ?_ ?_ (Json.encodable_write hwritable))
    · exact fun entry hentry => (hledger entry hentry).2.sound
    · exact fun entry hentry => (hledger entry hentry).2.fits

/-- A repeated key, numerals and words for values, and a file in which one entry does not pass. -/
def laxFiles : FileTree :=
  ⟨[(["nodes"], .file (Utf8.encode (.ofString (
      "\x7b\"7\":\x7b\"name\":\"a\",\"node_id\":\"x\"\x7d," ++
      "\"3\":\x7b\"name\":\"b\",\"node_id\":\"y\"\x7d," ++
      "\"7\":\x7b\"name\":\"c\",\"node_id\":\"z\"\x7d\x7d")))),
    (["blocks"], .file (Utf8.encode (.ofString (
      "\r\n\x7b\"h\":\x7b\"block_number\":\" 1_0.0\",\"first_seen\":true," ++
      "\"lowest_propagation_time\":2.0,\"finalized\":\"Yes\"\x7d\x7d")))),
    (["partly"], .file (Utf8.encode (.ofString (
      "\x7b\"g\":\x7b\"block_number\":1,\"first_seen\":2\x7d," ++
      "\"h\":\x7b\"block_number\":-1,\"first_seen\":2\x7d\x7d"))))], []⟩

theorem loads_of_laxFiles :
    (loadRegistry laxFiles ⟨false, ["nodes"]⟩).1
      = OrderedMap.ofPairs [(.ofString "7", ⟨"c", "z"⟩), (.ofString "3", ⟨"b", "y"⟩)]
    ∧ (loadLedger laxFiles ⟨false, ["blocks"]⟩).1
      = OrderedMap.ofPairs [(.ofString "h", ⟨10, 1, some 2, [], 0, true⟩)]
    ∧ (loadLedger laxFiles ⟨false, ["partly"]⟩).1 = .empty
    ∧ (∃ saved, save laxFiles ⟨false, ["blocks"]⟩
          (loadLedger laxFiles ⟨false, ["blocks"]⟩).1.toJson = .ok saved
      ∧ saved.done = true ∧ (loadLedger saved.files ⟨false, ["blocks"]⟩).1
        = (loadLedger laxFiles ⟨false, ["blocks"]⟩).1) := by
  obtain ⟨-, -, hledger, -⟩ := loads_all_or_nothing laxFiles ⟨false, ["nodes"]⟩ ⟨false, ["blocks"]⟩
  obtain ⟨saved, -, hsave, hdone, -, hload, -⟩ := hledger.survives laxFiles ⟨false, ["blocks"]⟩
    ⟨_, _, rfl, by decide, rfl, by decide +kernel, by decide +kernel⟩
  exact ⟨by decide +kernel, by decide +kernel, by decide +kernel, saved, hsave, hdone, hload⟩

end Snapshot

end AuthorWatch
