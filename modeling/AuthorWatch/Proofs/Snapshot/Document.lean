import AuthorWatch.Snapshot.Store
import AuthorWatch.Proofs.Files.Tree
import AuthorWatch.Proofs.Check.Basic
import AuthorWatch.Proofs.Json.Writing
import AuthorWatch.Proofs.Text.Utf8

/-! The document of a map reads back as the map. Its entries have to pass the checks of
loading, which bound some integers from below, and its integers have to be short enough. -/

namespace AuthorWatch

/-! ### Entries that pass -/

theorem Node.ofJson_toJson (n : Node) : Node.ofJson n.toJson = .passed n := rfl

/-- What loading asks of a reporter. -/
def Reporter.Sound (r : Reporter) : Prop := 0 ≤ r.ordinal

/-- What loading asks of a record. -/
structure Record.Sound (r : Record) : Prop where
  height : 0 ≤ r.height
  count : 0 ≤ r.count
  reporters : ∀ x ∈ r.reporters, x.Sound

theorem Reporter.ofJson_toJson {r : Reporter} (h : r.Sound) :
    Reporter.ofJson r.toJson = .passed r := by
  change Reporter.mk <$> (Check.integerAtLeast 0 (.int r.ordinal)).under "node_ordinal"
    <*> .passed r.name <*> .passed r.nodeId <*> .passed r.seen = _
  rw [Check.integerAtLeast_int h]
  rfl

theorem Record.reportersOfJson_toJson {xs : List Reporter} (h : ∀ x ∈ xs, x.Sound) :
    Record.reportersOfJson (.array (xs.map Reporter.toJson)) = .passed xs :=
  Check.each_of_passed fun x hx => Reporter.ofJson_toJson (h x hx)

theorem Record.ofJson_toJson {r : Record} (h : r.Sound) : Record.ofJson r.toJson = .passed r := by
  have hlowest : Check.ofExcept ((Json.ofIntOption r.lowest).orNull Json.toInteger)
      = .passed r.lowest := by
    cases r.lowest <;> rfl
  change Record.mk <$> (Check.integerAtLeast 0 (.int r.height)).under "block_number"
    <*> .passed r.firstSeen
    <*> (Check.ofExcept ((Json.ofIntOption r.lowest).orNull Json.toInteger)).under
      "lowest_propagation_time"
    <*> (Record.reportersOfJson (.array (r.reporters.map Reporter.toJson))).under "reporters"
    <*> (Check.integerAtLeast 0 (.int r.count)).under "report_count" <*> .passed r.finalized = _
  rw [Check.integerAtLeast_int h.height, Check.integerAtLeast_int h.count, hlowest,
    Record.reportersOfJson_toJson h.reporters]
  rfl

/-- An object passes as a reporter if its fields do. -/
theorem Reporter.fields_of_ofJson {v : Json} {r : Reporter} (h : Reporter.ofJson v = .passed r) :
    ∃ members, v = .object members
      ∧ Check.required (.integerAtLeast 0) "node_ordinal" members = .passed r.ordinal
      ∧ Check.required .text "node_name" members = .passed r.name
      ∧ Check.required .text "node_id" members = .passed r.nodeId
      ∧ Check.required .integer "timestamp" members = .passed r.seen := by
  obtain ⟨members, rfl, h₄⟩ := Check.exists_of_object h
  obtain ⟨_, seen, h₃, hseen, rfl⟩ := Check.seq_eq_passed_iff.mp h₄
  obtain ⟨_, nodeId, h₂, hid, rfl⟩ := Check.seq_eq_passed_iff.mp h₃
  obtain ⟨_, name, h₁, hname, rfl⟩ := Check.seq_eq_passed_iff.mp h₂
  obtain ⟨ordinal, hordinal, rfl⟩ := Check.map_eq_passed_iff.mp h₁
  exact ⟨members, rfl, hordinal, hname, hid, hseen⟩

/-- An object passes as a record if its fields do. -/
theorem Record.fields_of_ofJson {v : Json} {r : Record} (h : Record.ofJson v = .passed r) :
    ∃ members, v = .object members
      ∧ Check.required (.integerAtLeast 0) "block_number" members = .passed r.height
      ∧ Check.required .integer "first_seen" members = .passed r.firstSeen
      ∧ Check.optional none (fun v => .ofExcept (v.orNull Json.toInteger)) "lowest_propagation_time"
        members = .passed r.lowest
      ∧ Check.optional [] Record.reportersOfJson "reporters" members = .passed r.reporters
      ∧ Check.optional 0 (.integerAtLeast 0) "report_count" members = .passed r.count
      ∧ Check.optional false (fun v => .ofExcept v.toFlag) "finalized" members
        = .passed r.finalized := by
  obtain ⟨members, rfl, h₆⟩ := Check.exists_of_object h
  obtain ⟨_, finalized, h₅, hfinalized, rfl⟩ := Check.seq_eq_passed_iff.mp h₆
  obtain ⟨_, count, h₄, hcount, rfl⟩ := Check.seq_eq_passed_iff.mp h₅
  obtain ⟨_, reporters, h₃, hreporters, rfl⟩ := Check.seq_eq_passed_iff.mp h₄
  obtain ⟨_, lowest, h₂, hlowest, rfl⟩ := Check.seq_eq_passed_iff.mp h₃
  obtain ⟨_, firstSeen, h₁, hfirst, rfl⟩ := Check.seq_eq_passed_iff.mp h₂
  obtain ⟨height, hheight, rfl⟩ := Check.map_eq_passed_iff.mp h₁
  exact ⟨members, rfl, hheight, hfirst, hlowest, hreporters, hcount, hfinalized⟩

theorem Reporter.sound_of_ofJson {v : Json} {r : Reporter} (h : Reporter.ofJson v = .passed r) :
    r.Sound := by
  obtain ⟨members, -, hordinal, -⟩ := fields_of_ofJson h
  obtain ⟨w, hw⟩ := Check.exists_of_required hordinal
  exact Check.le_of_integerAtLeast hw

theorem Record.sound_of_reportersOfJson {v : Json} {xs : List Reporter}
    (h : Record.reportersOfJson v = .passed xs) : ∀ x ∈ xs, x.Sound := by
  cases v with
  | array items =>
    intro x hx
    obtain ⟨w, hw⟩ := Check.exists_of_each h x hx
    exact Reporter.sound_of_ofJson hw
  | _ => cases h

theorem Record.sound_of_ofJson {v : Json} {r : Record} (h : Record.ofJson v = .passed r) :
    r.Sound := by
  obtain ⟨members, -, hheight, -, -, hreporters, hcount, -⟩ := fields_of_ofJson h
  obtain ⟨w, hw⟩ := Check.exists_of_required hheight
  refine ⟨Check.le_of_integerAtLeast hw, ?_, ?_⟩
  · rcases Check.exists_of_optional hcount with hzero | ⟨w, hw⟩
    · exact hzero.symm.le
    · exact Check.le_of_integerAtLeast hw
  · rcases Check.exists_of_optional hreporters with hnone | ⟨w, hw⟩
    · rw [hnone]
      exact List.forall_mem_nil _
    · exact Record.sound_of_reportersOfJson hw

/-! ### Documents that can be stored -/

/-- Every integer of a record is short enough to be read. -/
structure Record.Fits (r : Record) : Prop where
  height : Json.Fits r.height
  firstSeen : Json.Fits r.firstSeen
  lowest : ∀ time ∈ r.lowest, Json.Fits time
  count : Json.Fits r.count
  reporters : ∀ x ∈ r.reporters, Json.Fits x.ordinal ∧ Json.Fits x.seen

theorem Record.fits_iff (r : Record) : r.Fits ↔ Json.Fits r.height ∧ Json.Fits r.firstSeen
    ∧ (∀ time ∈ r.lowest, Json.Fits time) ∧ Json.Fits r.count
    ∧ ∀ x ∈ r.reporters, Json.Fits x.ordinal ∧ Json.Fits x.seen :=
  ⟨fun h => ⟨h.height, h.firstSeen, h.lowest, h.count, h.reporters⟩,
    fun ⟨hheight, hfirst, hlowest, hcount, hreporters⟩ =>
      ⟨hheight, hfirst, hlowest, hcount, hreporters⟩⟩

instance (r : Record) : Decidable r.Fits := decidable_of_iff' _ r.fits_iff

theorem Json.storableItems_map {α : Type} {depth : ℕ} {f : α → Json} {xs : List α}
    (h : ∀ x ∈ xs, Storable depth (f x)) : StorableItems depth (xs.map f) := by
  induction xs with
  | nil => trivial
  | cons x xs ih =>
    exact ⟨h x (List.mem_cons_self ..), ih fun y hy => h y (List.mem_cons_of_mem _ hy)⟩

theorem Json.storableMembers_map {α : Type} {depth : ℕ} {f : α → Json} {xs : List (Text × α)}
    (h : ∀ x ∈ xs, Storable depth (f x.2)) :
    StorableMembers depth (xs.map fun (key, a) => (key, f a)) := by
  induction xs with
  | nil => trivial
  | cons x xs ih =>
    exact ⟨h x (List.mem_cons_self ..), ih fun y hy => h y (List.mem_cons_of_mem _ hy)⟩

theorem Node.storable (n : Node) {depth : ℕ} (hd : 0 < depth) : Json.Storable depth n.toJson :=
  .inr ⟨hd, trivial, trivial, trivial⟩

theorem Reporter.storable {x : Reporter} (h : Json.Fits x.ordinal ∧ Json.Fits x.seen) {depth : ℕ}
    (hd : 0 < depth) : Json.Storable depth x.toJson :=
  .inr ⟨hd, h.1, trivial, trivial, h.2, trivial⟩

theorem Record.storable {r : Record} (h : r.Fits) {depth : ℕ} (hd : 3 ≤ depth) :
    Json.Storable depth r.toJson := by
  have hlowest : Json.Storable (depth - 1) (Json.ofIntOption r.lowest) := by
    have := h.lowest
    cases hl : r.lowest with
    | none => trivial
    | some time => exact this time hl
  have hreporters : Json.Storable (depth - 1) (.array (r.reporters.map Reporter.toJson)) :=
    .inr ⟨by omega, Json.storableItems_map fun x hx =>
      Reporter.storable (h.reporters x hx) (by omega)⟩
  exact .inr ⟨by omega, h.height, h.firstSeen, hlowest, hreporters, h.count, trivial, trivial⟩

theorem Registry.storable (r : Registry) : Json.Storable 200 r.toJson :=
  .inr ⟨by decide, Json.storableMembers_map fun x _ => x.2.storable (by decide)⟩

theorem Ledger.storable {l : Ledger} (h : ∀ entry ∈ l.entries, entry.2.Fits) :
    Json.Storable 200 l.toJson :=
  .inr ⟨by decide, Json.storableMembers_map fun x hx => Record.storable (h x hx) (by decide)⟩

/-! ### Whole documents -/

namespace Snapshot

variable {α : Type} {read : Json → Check α} {toJson : α → Json}

theorem entries_map {m : OrderedMap α}
    (h : ∀ entry ∈ m.entries, read (toJson entry.2) = .passed entry.2) :
    entries read (.object (m.entries.map fun (key, a) => (key, toJson a))) = .passed m := by
  have heach : Check.each (fun (key, v) => (key, ·) <$> read v)
      (m.entries.map fun (key, a) => (key, toJson a)) = .passed m.entries :=
    Check.each_of_passed fun entry hentry => by
      change (entry.1, ·) <$> read (toJson entry.2) = _
      rw [h entry hentry]
      rfl
  rw [entries, heach, Check.map_passed, OrderedMap.ofPairs_entries]

/-- The text of an object is not blank. -/
theorem not_isBlank_write (members : List (Text × Json)) :
    (Json.object members).write.isBlank = false := by
  cases members <;> rfl

theorem ofBytes_write {m : OrderedMap α}
    (hpass : ∀ entry ∈ m.entries, read (toJson entry.2) = .passed entry.2) {document : Json}
    (hd : document = .object (m.entries.map fun (key, a) => (key, toJson a)))
    (hs : Json.Storable 200 document) (he : document.write.encodable = true) :
    ofBytes read (Utf8.encode document.write) = some m := by
  have hread : Json.read .document document.write = .ok document := Json.read_write hs
  have hblank : document.write.isBlank = false := by
    rw [hd]
    exact not_isBlank_write _
  have hentries : entries read document = .passed m := by
    rw [hd]
    exact entries_map hpass
  rw [ofBytes, Utf8.decode?_encode he, Option.bind_some, Json.withPlainLineEnds_write hs, ofText,
    hblank]
  simp only [Bool.false_eq_true, if_false, hread, hentries]

theorem ofBytes_registry {r : Registry} (he : r.toJson.write.encodable = true) :
    ofBytes Node.ofJson (Utf8.encode r.toJson.write) = some r :=
  ofBytes_write (fun entry _ => entry.2.ofJson_toJson) rfl r.storable he

theorem ofBytes_ledger {l : Ledger} (hs : ∀ entry ∈ l.entries, entry.2.Sound)
    (hf : ∀ entry ∈ l.entries, entry.2.Fits) (he : l.toJson.write.encodable = true) :
    ofBytes Record.ofJson (Utf8.encode l.toJson.write) = some l :=
  ofBytes_write (fun entry hentry => Record.ofJson_toJson (hs entry hentry)) rfl
    (Ledger.storable hf) he

/-- What bytes are loaded as: nothing, or the entries of a document. -/
theorem cases_of_ofBytes {bytes : List UInt8} {m : OrderedMap α}
    (h : ofBytes read bytes = some m) :
    m = .empty ∨ ∃ t members, Utf8.decode? bytes = some t
      ∧ Json.read .document t.withPlainLineEnds = .ok (.object members)
      ∧ entries read (.object members) = .passed m := by
  rw [ofBytes, Option.bind_eq_some_iff] at h
  obtain ⟨t, hdecode, ht⟩ := h
  unfold ofText at ht
  split at ht
  · cases ht
    exact .inl rfl
  · split at ht
    · cases ht
    next document hdocument =>
      split at ht
      next loaded hloaded =>
        cases ht
        cases document with
        | object members => exact .inr ⟨t, members, hdecode, hdocument, hloaded⟩
        | _ => cases hloaded
      · cases ht

/-- Entries come from members with their keys. -/
theorem entries_eq_passed_iff {members : List (Text × Json)} {m : OrderedMap α} :
    entries read (.object members) = .passed m ↔ ∃ pairs, OrderedMap.ofPairs pairs = m
      ∧ Assoc.Matches (fun v a => read v = .passed a) members pairs := by
  have hpair : ∀ (member : Text × Json) (pair : Text × α),
      (member.1, ·) <$> read member.2 = .passed pair
        ↔ member.1 = pair.1 ∧ read member.2 = .passed pair.2 := by
    rintro ⟨key, v⟩ ⟨key', a⟩
    simp [Check.map_eq_passed_iff, and_comm]
  rw [entries, Check.map_eq_passed_iff]
  simp only [Check.each_eq_passed_iff, hpair, Assoc.Matches, and_comm]

/-- Every loaded entry passed its check. -/
theorem exists_of_entries {members : List (Text × Json)} {m : OrderedMap α}
    (h : entries read (.object members) = .passed m) :
    ∀ entry ∈ m.entries, ∃ member ∈ members, member.1 = entry.1
      ∧ read member.2 = .passed entry.2 := by
  obtain ⟨pairs, rfl, hpairs⟩ := entries_eq_passed_iff.mp h
  intro entry hentry
  have hmem : entry ∈ pairs := (Assoc.mem_of_mem_insertAll hentry).resolve_left List.not_mem_nil
  exact Check.exists_mem_of_forall₂ hpairs hmem

theorem exists_of_ofBytes {bytes : List UInt8} {m : OrderedMap α}
    (h : ofBytes read bytes = some m) : ∀ entry ∈ m.entries, ∃ v, read v = .passed entry.2 := by
  intro entry hentry
  obtain rfl | ⟨t, members, -, -, hentries⟩ := cases_of_ofBytes h
  · cases hentry
  · obtain ⟨member, -, -, hpassed⟩ := exists_of_entries hentries entry hentry
    exact ⟨member.2, hpassed⟩

/-! ### Snapshot files -/

/-- The entries that a snapshot file holds; none, if it does not hold what it should. -/
def held (read : Json → Check α) (files : FileTree) (path : Path) : OrderedMap α :=
  ((files.content? path).bind (ofBytes read)).getD .empty

theorem load_fst (kind : SnapshotKind) (files : FileTree) (path : Path) :
    (load read kind files path).1 = held read files path := by
  rw [load, find, held]
  cases hr : files.read path with
  | error e =>
    have hnone : files.content? path = none := by
      cases hc : files.content? path with
      | none => rfl
      | some content => rw [FileTree.read_eq_ok_iff.mpr hc] at hr; cases hr
    rw [hnone]
    cases e <;> rfl
  | ok content =>
    rw [FileTree.read_eq_ok_iff.mp hr, Option.bind_some]
    dsimp only
    cases ofBytes read content <;> rfl

theorem held_of_content {files later : FileTree} {path : Path}
    (h : later.content? path = files.content? path) :
    held read later path = held read files path := by
  rw [held, held, h]

theorem exists_of_held {files : FileTree} {path : Path} :
    ∀ entry ∈ (held read files path).entries, ∃ v, read v = .passed entry.2 := by
  rw [held]
  cases hb : (files.content? path).bind (ofBytes read) with
  | none => intro entry hentry; cases hentry
  | some m =>
    obtain ⟨bytes, -, hbytes⟩ := Option.bind_eq_some_iff.mp hb
    exact exists_of_ofBytes hbytes

end Snapshot

end AuthorWatch
