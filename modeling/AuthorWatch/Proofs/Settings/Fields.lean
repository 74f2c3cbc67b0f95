import AuthorWatch.Proofs.Check.Basic
import AuthorWatch.Proofs.Settings.Merge
import AuthorWatch.Settings.Basic
import Mathlib.Data.List.Nodup
import Mathlib.Tactic.MkIffOfInductiveProp

/-! Settings, field by field. The check of a document passes exactly the settings whose every field
is read from what stands at its path, or has its default if nothing stands there. -/

namespace AuthorWatch

open Json (Found found? Distinct)

/-- What was found, without the members of an object. -/
def Json.Found.toJson : Found → Json
  | mapping => .object []
  | value v => v

/-- The value of a field: read from what was found, or the default if nothing was. -/
def Reads {α : Type} (read : Json → Check α) (fallback : α) (found : Option Found) (a : α) : Prop :=
  match found with
  | none => a = fallback
  | some f => read f.toJson = .passed a

/-- What stands under a key of an object. -/
def fieldsOf (members : List (Text × Json)) (key : Text) : Option Found :=
  found? [key] (.object members)

/-! ### One field, and one section -/

section Field

variable {α : Type} {read : Json → Check α} {fallback a : α} {key : Text}
  {members : List (Text × Json)}

/-- The check does not look into objects. -/
def Blind (read : Json → Check α) : Prop :=
  ∀ members others, read (.object members) = read (.object others)

theorem member?_eq_get? (h : (Assoc.keys members).Nodup) :
    Json.member? key members = Assoc.get? key members := by
  have hreverse : (Assoc.keys members.reverse).Nodup := by
    rw [Assoc.keys, List.map_reverse]
    exact List.nodup_reverse.mpr h
  refine Option.ext fun v => ⟨fun hv => ?_, fun hv => ?_⟩
  · exact Assoc.get?_of_mem h (List.mem_reverse.mp (Assoc.mem_of_get? hv))
  · exact Assoc.get?_of_mem hreverse (List.mem_reverse.mpr (Assoc.mem_of_get? hv))

theorem optional_eq_passed_iff (h : (Assoc.keys members).Nodup) (hread : Blind read) :
    Check.optional fallback read key members = .passed a
      ↔ Reads read fallback (found? [key] (.object members)) a := by
  rw [Check.optional, member?_eq_get? h, Json.found?_cons_object]
  cases Assoc.get? key members with
  | none => simp [Reads, eq_comm]
  | some v =>
    rw [Check.under_eq_passed_iff]
    cases v with
    | object inner => rw [hread inner []]; rfl
    | _ => rfl

/-- A section that is an object or missing is checked by its members. -/
theorem exists_fields_of_section (name : Text) (check : List (Text × Json) → Check α)
    (hdistinct : Distinct (.object members))
    (hsection : ∀ x, found? [key] (.object members) ≠ some (.value x)) :
    ∃ inner, (Assoc.keys inner).Nodup
      ∧ (fun field => found? [key, field] (.object members)) = fieldsOf inner
      ∧ ∀ a, Settings.sectionOf key name check members = .passed a ↔ check inner = .passed a := by
  rw [Settings.sectionOf, member?_eq_get? hdistinct.1]
  simp only [Json.found?_cons_object] at hsection ⊢
  rcases Option.eq_none_or_eq_some (Assoc.get? key members) with hget | ⟨v, hget⟩
  · exact ⟨[], List.nodup_nil, by rw [hget]; rfl, fun _ => by rw [hget]; rfl⟩
  · have hv := Json.distinctMembers_iff.mp hdistinct.2 _ (Assoc.mem_of_get? hget)
    rw [hget] at hsection ⊢
    cases v with
    | object inner =>
      exact ⟨inner, hv.1, rfl, fun _ => Check.under_eq_passed_iff⟩
    | _ => exact absurd rfl (hsection _)

end Field

/-! ### All fields -/

/-- Where the fields of a section are read from, under the names of the fields. -/
@[mk_iff]
structure FeedSettings.From (found : Text → Option Found) (s : FeedSettings) : Prop where
  address : Reads checkAddress defaultAddress (found "telemetry_url") s.address
  genesis : Reads checkGenesis defaultGenesis (found "genesis_hash") s.genesis
  reconnectDelay : Reads .nonnegative (seconds 5) (found "reconnect_delay_sec") s.reconnectDelay
  openTimeout : Reads .positive (seconds 30) (found "open_timeout_sec") s.openTimeout
  pingInterval :
    Reads .positiveOrNull (some (seconds 25)) (found "ping_interval_sec") s.pingInterval
  pingTimeout : Reads .positiveOrNull (some (seconds 20)) (found "ping_timeout_sec") s.pingTimeout
  maxMessageBytes : Reads (fun v => Int.toNat <$> .integerAbove 0 v) (16 * 1024 * 1024)
    (found "max_message_bytes") s.maxMessageBytes
  queueSize :
    Reads (fun v => Int.toNat <$> .integerAbove 0 v) 10000 (found "queue_size") s.queueSize

@[mk_iff]
structure AggregationSettings.From (found : Text → Option Found) (s : AggregationSettings) :
    Prop where
  window : Reads checkWindow .standard (found "retention_window") s.window
  minReports : Reads (.integerAbove 0) 3 (found "min_reports") s.policy.minReports
  maxAge : Reads (.integerAtLeast 0) 3 (found "max_age_seconds") s.policy.maxAge
  maxLag : Reads (.integerAtLeast 0) 1 (found "max_height_lag") s.policy.maxLag

@[mk_iff]
structure StorageSettings.From (found : Text → Option Found) (s : StorageSettings) : Prop where
  output : Reads .text "./data/res-likely-authors.csv" (found "output_path") s.output
  nodes : Reads .text "./data/telemetry-nodes.json" (found "nodes_file") s.nodes
  blocks : Reads .text "./data/telemetry-blocks.json" (found "blocks_file") s.blocks

@[mk_iff]
structure LogSettings.From (found : Text → Option Found) (s : LogSettings) : Prop where
  level : Reads checkLevel .info (found "level") s.level
  file : Reads .textOrNull none (found "file") s.file
  rotation : Reads .text "10 MB" (found "rotation") s.rotation

/-- Where all fields are read from, under the names of their sections and their own. -/
@[mk_iff]
structure Settings.From (found : Text → Text → Option Found) (s : Settings) : Prop where
  feed : s.feed.From (found "feed")
  aggregation : s.aggregation.From (found "aggregation")
  storage : s.storage.From (found "storage")
  logging : s.logging.From (found "logging")

section Sections

variable {members : List (Text × Json)}

theorem FeedSettings.check_eq_passed_iff {s : FeedSettings} (h : (Assoc.keys members).Nodup) :
    FeedSettings.check members = .passed s ↔ s.From (fieldsOf members) := by
  obtain ⟨⟩ := s
  simp only [check, Nat.reduceMul, Check.seq_eq_passed_iff, Check.map_eq_passed_iff,
    exists_and_left, exists_exists_and_eq_and, exists_exists_and_exists_and_eq_and, ↓existsAndEq,
    and_true, and_assoc, mk.injEq, from_iff]
  refine and_congr (optional_eq_passed_iff h ?_) (and_congr (optional_eq_passed_iff h ?_)
    (and_congr (optional_eq_passed_iff h ?_) (and_congr (optional_eq_passed_iff h ?_)
    (and_congr (optional_eq_passed_iff h ?_) (and_congr (optional_eq_passed_iff h ?_)
    (and_congr (optional_eq_passed_iff h ?_) (optional_eq_passed_iff h ?_))))))) <;>
    exact fun _ _ => rfl

theorem AggregationSettings.check_eq_passed_iff {s : AggregationSettings}
    (h : (Assoc.keys members).Nodup) :
    AggregationSettings.check members = .passed s ↔ s.From (fieldsOf members) := by
  obtain ⟨_, ⟨⟩⟩ := s
  simp only [check, Check.seq_eq_passed_iff, Check.map_eq_passed_iff, exists_and_left,
    exists_exists_and_eq_and, exists_exists_and_exists_and_eq_and, ↓existsAndEq, and_true, mk.injEq,
    Policy.mk.injEq, and_assoc, from_iff]
  refine and_congr (optional_eq_passed_iff h ?_) (and_congr (optional_eq_passed_iff h ?_)
    (and_congr (optional_eq_passed_iff h ?_) (optional_eq_passed_iff h ?_))) <;> exact fun _ _ => rfl

theorem StorageSettings.check_eq_passed_iff {s : StorageSettings} (h : (Assoc.keys members).Nodup) :
    StorageSettings.check members = .passed s ↔ s.From (fieldsOf members) := by
  obtain ⟨⟩ := s
  simp only [check, Check.seq_eq_passed_iff, Check.map_eq_passed_iff, exists_and_left,
    exists_exists_and_eq_and, exists_exists_and_exists_and_eq_and, mk.injEq, ↓existsAndEq, and_true,
    from_iff]
  refine and_congr (optional_eq_passed_iff h ?_) (and_congr (optional_eq_passed_iff h ?_)
    (optional_eq_passed_iff h ?_)) <;> exact fun _ _ => rfl

theorem LogSettings.check_eq_passed_iff {s : LogSettings} (h : (Assoc.keys members).Nodup) :
    LogSettings.check members = .passed s ↔ s.From (fieldsOf members) := by
  obtain ⟨⟩ := s
  simp only [check, Check.seq_eq_passed_iff, Check.map_eq_passed_iff, exists_and_left,
    exists_exists_and_eq_and, exists_exists_and_exists_and_eq_and, mk.injEq, ↓existsAndEq, and_true,
    from_iff]
  refine and_congr (optional_eq_passed_iff h ?_) (and_congr (optional_eq_passed_iff h ?_)
    (optional_eq_passed_iff h ?_)) <;> exact fun _ _ => rfl

/-- The names of the sections. -/
def Settings.sectionNames : List Text := ["feed", "aggregation", "storage", "logging"]

/-- In an object whose sections are objects or missing, every field is read by itself. -/
theorem Settings.check_eq_passed_iff {s : Settings} (hdistinct : Distinct (.object members))
    (hsections : ∀ key ∈ sectionNames, ∀ x, found? [key] (.object members) ≠ some (.value x)) :
    Settings.check members = .passed s
      ↔ s.From fun section' key => found? [section', key] (.object members) := by
  obtain ⟨feed, hfeed, hfeedFields, hfeedIff⟩ := exists_fields_of_section "FeedSettings"
    FeedSettings.check hdistinct (hsections "feed" (by simp [sectionNames]))
  obtain ⟨aggregation, haggregation, haggregationFields, haggregationIff⟩ :=
    exists_fields_of_section "AggregationSettings" AggregationSettings.check hdistinct
      (hsections "aggregation" (by simp [sectionNames]))
  obtain ⟨storage, hstorage, hstorageFields, hstorageIff⟩ := exists_fields_of_section
    "StorageSettings" StorageSettings.check hdistinct (hsections "storage" (by simp [sectionNames]))
  obtain ⟨logging, hlogging, hloggingFields, hloggingIff⟩ := exists_fields_of_section
    "LoggingSettings" LogSettings.check hdistinct (hsections "logging" (by simp [sectionNames]))
  obtain ⟨⟩ := s
  rw [from_iff, hfeedFields, haggregationFields, hstorageFields, hloggingFields,
    ← FeedSettings.check_eq_passed_iff hfeed, ← AggregationSettings.check_eq_passed_iff haggregation,
    ← StorageSettings.check_eq_passed_iff hstorage, ← LogSettings.check_eq_passed_iff hlogging]
  simp [check, Check.seq_eq_passed_iff, Check.map_eq_passed_iff, hfeedIff, haggregationIff,
    hstorageIff, hloggingIff, and_assoc]

end Sections

end AuthorWatch
