import AuthorWatch.Proofs.Check.Basic
import AuthorWatch.Settings.Basic
import Mathlib.Tactic.SplitIfs

/-! Complaints that can be shown. Only those about the address of the feed and the log level quote
what they are about, so all complaints about settings can be shown if these two texts can. -/

namespace AuthorWatch

/-! ### Single values -/

section Values

variable {v : Json} {fault : Fault}

theorem Json.isShowable_of_toText (h : v.toText = .error fault) : fault.isShowable = true := by
  cases v <;> cases h <;> rfl

theorem Json.isShowable_of_integerOfFloat {x : Binary64}
    (h : Json.integerOfFloat x = .error fault) : fault.isShowable = true := by
  unfold Json.integerOfFloat at h
  split_ifs at h
  · cases h; rfl
  · split at h
    · cases h; rfl
    · split_ifs at h
      cases h; rfl

theorem Numeral.isShowable_of_integer {t : Text} (h : Numeral.integer t = .error fault) :
    fault.isShowable = true := by
  unfold Numeral.integer at h
  dsimp only at h
  split at h
  · cases h; rfl
  · split_ifs at h
    cases h; rfl

theorem Json.isShowable_of_toInteger (h : v.toInteger = .error fault) :
    fault.isShowable = true := by
  cases v with
  | int n => cases h
  | bool b => cases h
  | float x => exact isShowable_of_integerOfFloat h
  | text t => exact Numeral.isShowable_of_integer h
  | null => cases h; rfl
  | array items => cases h; rfl
  | object members => cases h; rfl

theorem Json.isShowable_of_toNumber (h : v.toNumber = .error fault) : fault.isShowable = true := by
  unfold Json.toNumber at h
  split at h
  · cases h
  · split at h
    · cases h
    · cases h; rfl
  · cases h
  · unfold Numeral.number at h
    split at h
    · cases h
    · split at h
      · cases h
      · cases h; rfl
  · cases h; rfl

end Values

/-! ### Checks -/

namespace Check

variable {α β : Type} {read : Json → Check α} {key : Text} {members : List (Text × Json)}

/-- Every complaint can be shown. -/
def Shows (x : Check α) : Prop := ∀ c ∈ x.complaints, c.fault.isShowable = true

theorem shows_passed (a : α) : (passed a).Shows := List.forall_mem_nil _

theorem shows_map {f : α → β} {x : Check α} (h : x.Shows) : (f <$> x).Shows := by
  cases x with
  | passed a => exact shows_passed (f a)
  | failed cs => exact h

theorem shows_seq {f : Check (α → β)} {x : Check α} (hf : f.Shows) (hx : x.Shows) :
    (f <*> x).Shows := by
  cases f with
  | passed g =>
    cases x with
    | passed a => exact shows_passed (g a)
    | failed cs => exact hx
  | failed cs =>
    cases x with
    | passed a => exact hf
    | failed ds => exact List.forall_mem_append.mpr ⟨hf, hx⟩

theorem shows_under {x : Check α} (h : x.Shows) : (x.under key).Shows := by
  cases x with
  | passed a => exact shows_passed a
  | failed cs => exact List.forall_mem_map.mpr h

theorem shows_ofExcept {x : Except Fault α}
    (h : ∀ fault, x = .error fault → fault.isShowable = true) : (ofExcept x).Shows := by
  cases x with
  | ok a => exact shows_passed a
  | error fault => exact List.forall_mem_singleton.mpr (h fault rfl)

theorem shows_andThen {x : Check α} {f : α → Except Fault β} (hx : x.Shows)
    (hf : ∀ a fault, x = passed a → f a = .error fault → fault.isShowable = true) :
    (x.andThen f).Shows := by
  cases x with
  | passed a => exact shows_ofExcept fun fault => hf a fault rfl
  | failed cs => exact hx

/-- The complaints about a field are those about what the object has there. -/
theorem shows_optional {fallback : α}
    (h : ∀ v, Json.member? key members = some v → (read v).Shows) :
    (optional fallback read key members).Shows := by
  unfold optional
  split
  next v hget => exact shows_under (h v hget)
  next => exact shows_passed fallback

theorem shows_text (v : Json) : (text v).Shows :=
  shows_ofExcept fun _ => Json.isShowable_of_toText

theorem shows_integer (v : Json) : (integer v).Shows :=
  shows_ofExcept fun _ => Json.isShowable_of_toInteger

theorem shows_integerAbove (bound : Int) (v : Json) : (integerAbove bound v).Shows := by
  refine shows_andThen (shows_integer v) fun n fault _ h => ?_
  split_ifs at h
  cases h; rfl

theorem shows_integerAtLeast (bound : Int) (v : Json) : (integerAtLeast bound v).Shows := by
  refine shows_andThen (shows_integer v) fun n fault _ h => ?_
  split_ifs at h
  cases h; rfl

theorem shows_positive (v : Json) : (positive v).Shows := by
  refine shows_andThen (shows_ofExcept fun _ => Json.isShowable_of_toNumber) fun x fault _ h => ?_
  split_ifs at h
  cases h; rfl

theorem shows_nonnegative (v : Json) : (nonnegative v).Shows := by
  refine shows_andThen (shows_ofExcept fun _ => Json.isShowable_of_toNumber) fun x fault _ h => ?_
  split_ifs at h
  cases h; rfl

theorem shows_positiveOrNull (v : Json) : (positiveOrNull v).Shows := by
  unfold positiveOrNull
  split_ifs
  · exact shows_passed none
  · exact shows_map (shows_positive v)

theorem shows_textOrNull (v : Json) : (textOrNull v).Shows := by
  refine shows_ofExcept fun fault h => ?_
  cases v <;> cases h <;> rfl

end Check

/-! ### Settings -/

open Check

variable {members : List (Text × Json)}

theorem FeedSettings.shows_checkAddress {v : Json} (h : ∀ t, v = .text t → t.encodable = true) :
    (checkAddress v).Shows := by
  refine shows_andThen (shows_text v) fun t fault htext hfault => ?_
  have hv : v = .text t := by cases v <;> cases htext; rfl
  split at hfault
  · cases hfault; rfl
  · split_ifs at hfault
    cases hfault
    exact h t hv

theorem FeedSettings.shows_checkGenesis (v : Json) : (checkGenesis v).Shows := by
  refine shows_andThen (shows_text v) fun t fault _ h => ?_
  split_ifs at h <;> cases h <;> rfl

theorem LogSettings.shows_checkLevel {v : Json} (h : ∀ t, v = .text t → t.encodable = true) :
    (checkLevel v).Shows := by
  refine shows_andThen (shows_text v) fun t fault htext hfault => ?_
  have hv : v = .text t := by cases v <;> cases htext; rfl
  split at hfault
  · cases hfault
  · cases hfault
    exact h t hv

theorem AggregationSettings.shows_checkWindow (v : Json) : (checkWindow v).Shows := by
  refine shows_andThen (shows_integer v) fun n fault _ h => ?_
  split at h
  · cases h
  · cases h; rfl

theorem FeedSettings.shows_check (h : ∀ v t, Json.member? "telemetry_url" members = some v →
    v = .text t → t.encodable = true) : (check members).Shows := by
  refine shows_seq (shows_seq (shows_seq (shows_seq (shows_seq (shows_seq (shows_seq (shows_map
    ?_) ?_) ?_) ?_) ?_) ?_) ?_) ?_
  · exact shows_optional fun v hv => shows_checkAddress fun t => h v t hv
  · exact shows_optional fun v _ => shows_checkGenesis v
  · exact shows_optional fun v _ => shows_nonnegative v
  · exact shows_optional fun v _ => shows_positive v
  · exact shows_optional fun v _ => shows_positiveOrNull v
  · exact shows_optional fun v _ => shows_positiveOrNull v
  · exact shows_optional fun v _ => shows_map (shows_integerAbove 0 v)
  · exact shows_optional fun v _ => shows_map (shows_integerAbove 0 v)

theorem AggregationSettings.shows_check (members : List (Text × Json)) : (check members).Shows := by
  refine shows_seq (shows_seq (shows_seq (shows_map ?_) ?_) ?_) ?_
  · exact shows_optional fun v _ => shows_checkWindow v
  · exact shows_optional fun v _ => shows_integerAbove 0 v
  · exact shows_optional fun v _ => shows_integerAtLeast 0 v
  · exact shows_optional fun v _ => shows_integerAtLeast 0 v

theorem StorageSettings.shows_check (members : List (Text × Json)) : (check members).Shows := by
  refine shows_seq (shows_seq (shows_map ?_) ?_) ?_ <;>
    exact shows_optional fun v _ => shows_text v

theorem LogSettings.shows_check (h : ∀ v t, Json.member? "level" members = some v →
    v = .text t → t.encodable = true) : (check members).Shows := by
  refine shows_seq (shows_seq (shows_map ?_) ?_) ?_
  · exact shows_optional fun v hv => shows_checkLevel fun t => h v t hv
  · exact shows_optional fun v _ => shows_textOrNull v
  · exact shows_optional fun v _ => shows_text v

namespace Settings

theorem shows_sectionOf {α : Type} {key name : Text} {read : List (Text × Json) → Check α}
    (h : ∀ inner, Json.member? key members = some (.object inner) → (read inner).Shows)
    (hempty : (read []).Shows) : (sectionOf key name read members).Shows := by
  unfold sectionOf
  cases hget : Json.member? key members with
  | none => exact hempty
  | some v =>
    refine shows_under ?_
    cases v with
    | object inner => exact h inner hget
    | _ => exact List.forall_mem_singleton.mpr rfl

/-- Where the address of the feed and the log level can be shown, all complaints can. -/
theorem shows_check
    (haddress : ∀ inner v t, Json.member? "feed" members = some (.object inner) →
      Json.member? "telemetry_url" inner = some v → v = .text t → t.encodable = true)
    (hlevel : ∀ inner v t, Json.member? "logging" members = some (.object inner) →
      Json.member? "level" inner = some v → v = .text t → t.encodable = true) :
    (check members).Shows := by
  refine shows_seq (shows_seq (shows_seq (shows_map ?_) ?_) ?_) ?_
  · exact shows_sectionOf
      (fun inner hinner => FeedSettings.shows_check fun v t => haddress inner v t hinner)
      (FeedSettings.shows_check nofun)
  · exact shows_sectionOf (fun inner _ => AggregationSettings.shows_check inner)
      (AggregationSettings.shows_check [])
  · exact shows_sectionOf (fun inner _ => StorageSettings.shows_check inner)
      (StorageSettings.shows_check [])
  · exact shows_sectionOf
      (fun inner hinner => LogSettings.shows_check fun v t => hlevel inner v t hinner)
      (LogSettings.shows_check nofun)

end Settings

end AuthorWatch
