import AuthorWatch.Proofs.Feed.Frame
import AuthorWatch.Proofs.Snapshot.Document
import AuthorWatch.Proofs.Snapshot.Save

/-! What is saved survives: a state that can be saved is loaded again as it was, in the same
order, and saving it once more gives the same bytes. -/

namespace AuthorWatch

/-! ### Texts of documents -/

namespace Json

variable {α : Type} {p : Text → Prop}

theorem forall_itemTexts_map {f : α → Json} {xs : List α} (h : ∀ x ∈ xs, ∀ t ∈ (f x).texts, p t) :
    ∀ t ∈ itemTexts (xs.map f), p t := forall_itemTexts_iff.mpr (List.forall_mem_map.mpr h)

theorem forall_memberTexts_map {f : α → Json} {xs : List (Text × α)}
    (h : ∀ x ∈ xs, p x.1 ∧ ∀ t ∈ (f x.2).texts, p t) :
    ∀ t ∈ memberTexts (xs.map fun (key, a) => (key, f a)), p t :=
  forall_memberTexts_iff.mpr (List.forall_mem_map.mpr h)

end Json

theorem Node.encodable_texts {n : Node} (h : n.Encodable) :
    ∀ t ∈ n.toJson.texts, t.encodable = true := by
  simp only [toJson, Json.texts, Json.memberTexts, List.forall_mem_cons, List.forall_mem_append]
  exact ⟨rfl, ⟨h.1, nofun⟩, rfl, ⟨h.2, nofun⟩, nofun⟩

theorem Reporter.encodable_texts {x : Reporter} (h : x.Encodable) :
    ∀ t ∈ x.toJson.texts, t.encodable = true := by
  simp only [toJson, Json.texts, Json.memberTexts, List.forall_mem_cons, List.forall_mem_append]
  exact ⟨rfl, nofun, rfl, ⟨h.1, nofun⟩, rfl, ⟨h.2, nofun⟩, rfl, nofun, nofun⟩

theorem Record.encodable_texts {c : Record} (h : ∀ x ∈ c.reporters, x.Encodable) :
    ∀ t ∈ c.toJson.texts, t.encodable = true := by
  have hlowest : ∀ t ∈ (Json.ofIntOption c.lowest).texts, t.encodable = true := by
    cases c.lowest <;> nofun
  have hreporters := Json.forall_itemTexts_map (p := fun t => t.encodable = true)
    fun x hx => Reporter.encodable_texts (h x hx)
  simp only [toJson, Json.texts, Json.memberTexts, List.forall_mem_cons, List.forall_mem_append]
  exact ⟨rfl, nofun, rfl, nofun, rfl, hlowest, rfl, hreporters, rfl, nofun, rfl, nofun, nofun⟩

theorem Registry.isWritable_toJson {r : Registry} (h : r.Savable) : r.toJson.isWritable = true :=
  Json.isWritable_of_storable r.storable (Json.forall_memberTexts_map fun entry hentry =>
    ⟨(h entry hentry).1, Node.encodable_texts (h entry hentry).2⟩)

theorem Ledger.isWritable_toJson {l : Ledger} (h : l.Savable) : l.toJson.isWritable = true :=
  Json.isWritable_of_storable (Ledger.storable fun entry hentry => (h entry hentry).2.fits)
    (Json.forall_memberTexts_map fun entry hentry =>
      ⟨(h entry hentry).1, Record.encodable_texts (h entry hentry).2.encodable⟩)

/-! ### Saving and loading -/

namespace Snapshot

variable {α : Type} {read : Json → Check α} {toJson : OrderedMap α → Json}

/-- A map is saved wherever a snapshot can be written, and loaded again with the same keys in
the same order and equal values. What was loaded is saved as the same bytes. -/
def Survives (toJson : OrderedMap α → Json) (load : FileTree → Path → OrderedMap α × List Notice)
    (m : OrderedMap α) : Prop :=
  ∀ files path, Writable files path →
    ∃ saved bytes, save files path (toJson m) = .ok saved ∧ saved.done = true
      ∧ saved.files.read path = .ok bytes ∧ (load saved.files path).1 = m
      ∧ ∀ others beside, Writable others beside →
        ∃ again, save others beside (toJson (load saved.files path).1) = .ok again
          ∧ again.done = true ∧ again.files.read beside = .ok bytes

/-- A save that is done can be read at its path. -/
theorem read_of_save {files : FileTree} {path : Path} {document : Json} {saved : Saved}
    (h : save files path document = .ok saved) (hdone : saved.done = true) :
    saved.files.read path = .ok (Utf8.encode document.write) :=
  FileTree.read_eq_ok_iff.mpr ((save_spec h).2 hdone).2

theorem survives_of_ofBytes (kind : SnapshotKind) {m : OrderedMap α}
    (he : (toJson m).isWritable = true)
    (hbytes : ofBytes read (Utf8.encode (toJson m).write) = some m) :
    Survives toJson (load read kind) m := by
  intro files path hw
  obtain ⟨saved, hsave, hdone⟩ := exists_done hw he
  have hread := read_of_save hsave hdone
  have hload : (load read kind saved.files path).1 = m := by
    rw [load_fst, held, FileTree.read_eq_ok_iff.mp hread, Option.bind_some, hbytes]
    rfl
  refine ⟨saved, _, hsave, hdone, hread, hload, fun others beside hw' => ?_⟩
  rw [hload]
  obtain ⟨again, hagain, hdone'⟩ := exists_done hw' he
  exact ⟨again, hagain, hdone', read_of_save hagain hdone'⟩

/-- Every registry and every ledger that can be saved survives. A ledger can be saved if its
texts hold no lone surrogates, heights, ordinals and counts are not negative, and every
integer has at most 4300 digits. From such a state items lead to such states only, if they
have no lone surrogates and passed their checks, and integers stay that short; events that
came from messages of the feed have passed, and their integers are. -/
theorem survives_of_savable :
    (∀ registry : Registry, registry.Savable → Survives Registry.toJson loadRegistry registry)
    ∧ (∀ ledger : Ledger, ledger.Savable → Survives Ledger.toJson loadLedger ledger)
    ∧ (∀ (r : Recorder) (visits : List Visit) (n : ℕ),
        r.tracker.registry.Savable → r.tracker.ledger.Savable →
        (∀ entry ∈ r.tracker.ledger.entries, entry.2.count ≤ n) →
        (∀ v ∈ visits, v.arrival.item.Savable ∧ Json.Fits v.arrival.now) →
        Json.Fits (n + visits.length : ℕ) →
        (r.after visits).tracker.registry.Savable ∧ (r.after visits).tracker.ledger.Savable)
    ∧ (∀ message, ∀ e ∈ (Frame.ofMessage message).events, (Item.event e).Encodable →
        (Item.event e).Savable) := by
  refine ⟨fun registry h => ?_, fun ledger h => ?_, fun r visits n => Recorder.savable_after,
    fun message e he ht => ?_⟩
  · have hwritable := Registry.isWritable_toJson h
    exact survives_of_ofBytes .nodes hwritable (ofBytes_registry (Json.encodable_write hwritable))
  · have hwritable := Ledger.isWritable_toJson h
    refine survives_of_ofBytes .blocks hwritable
      (ofBytes_ledger ?_ ?_ (Json.encodable_write hwritable))
    · exact fun entry hentry => (h entry hentry).2.sound
    · exact fun entry hentry => (h entry hentry).2.fits
  · obtain ⟨hchecked, hfits⟩ := Frame.sound_of_ofMessage message e he
    exact ⟨hchecked, hfits, ht⟩

/-- A node whose name holds line ends, and an import of a hash that documents have to escape. -/
def oddMessage : Message :=
  .text "[3,[1,[\"a\\r\\n\\u2028\",0,0,0,\"\\ud83d\\ude00\"]],6,[1,[10,\"\\\"\\\\\\u0000\",0,0,5]]]"

def oddVisits : List Visit :=
  (Frame.ofMessage oddMessage).events.map fun e => ⟨.empty, ⟨.event e, 7⟩⟩

def emptyRecorder : Recorder :=
  ⟨.ofRestored .empty .empty ⟨3, 3, 1⟩ ⟨1, Nat.one_pos⟩, ⟨none, none⟩⟩

theorem survives_of_oddMessage :
    (emptyRecorder.after oddVisits).tracker.registry.size = 1
    ∧ (emptyRecorder.after oddVisits).tracker.ledger.size = 1
    ∧ (∃ saved, save .empty ⟨false, ["nodes"]⟩
          (emptyRecorder.after oddVisits).tracker.registry.toJson = .ok saved
      ∧ saved.done = true ∧ (loadRegistry saved.files ⟨false, ["nodes"]⟩).1
        = (emptyRecorder.after oddVisits).tracker.registry)
    ∧ (∃ saved, save .empty ⟨false, ["blocks"]⟩
          (emptyRecorder.after oddVisits).tracker.ledger.toJson = .ok saved
      ∧ saved.done = true ∧ (loadLedger saved.files ⟨false, ["blocks"]⟩).1
        = (emptyRecorder.after oddVisits).tracker.ledger) := by
  obtain ⟨hregistry, hledger, hitems, hfeed⟩ := survives_of_savable
  have hencodable : ∀ e ∈ (Frame.ofMessage oddMessage).events, (Item.event e).Encodable := by
    decide +kernel
  have hvisits : ∀ v ∈ oddVisits, v.arrival.item.Savable ∧ Json.Fits v.arrival.now :=
    List.forall_mem_map.mpr fun e he => ⟨hfeed oddMessage e he (hencodable e he),
      Json.fits_of_lt (by decide : Int.natAbs 7 < _)⟩
  obtain ⟨hr, hl⟩ := hitems emptyRecorder oddVisits 0 nofun nofun nofun hvisits
    (Json.fits_of_lt (by decide +kernel))
  refine ⟨by decide +kernel, by decide +kernel, ?_, ?_⟩
  · obtain ⟨saved, -, hsave, hdone, -, hload, -⟩ := hregistry _ hr .empty ⟨false, ["nodes"]⟩
      ⟨_, _, rfl, by decide, rfl, by decide, by decide⟩
    exact ⟨saved, hsave, hdone, hload⟩
  · obtain ⟨saved, -, hsave, hdone, -, hload, -⟩ := hledger _ hl .empty ⟨false, ["blocks"]⟩
      ⟨_, _, rfl, by decide, rfl, by decide, by decide⟩
    exact ⟨saved, hsave, hdone, hload⟩

end Snapshot

end AuthorWatch
