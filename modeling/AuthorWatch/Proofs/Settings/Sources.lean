import AuthorWatch.Proofs.Json.Accepted
import AuthorWatch.Proofs.Settings.Environment
import AuthorWatch.Proofs.Settings.Fields
import AuthorWatch.Proofs.Yaml.Value
import AuthorWatch.Settings.Load

/-! The sources of the settings. Where no mapping of the document stands at two places, each field
is read by itself: from what is given, else from the environment, else from the document, else it
has its default. A mapping that stands at two places shows at both what was meant for one. -/

namespace AuthorWatch

open Json (Found found? meetsValue Distinct DistinctMembers)

/-! ### Distinct keys -/

namespace Json

variable {dialect : Dialect} {t rest : Text} {v : Json}

theorem distinct_of_atom (h : atom t = .ok (v, rest)) : Distinct v := by
  obtain ⟨⟨word, hword⟩, -⟩ | ⟨negative, u, hnumber, -⟩ := cases_of_atom h
  · simp only [words, List.mem_cons, Prod.mk.injEq, List.not_mem_nil, or_false] at hword
    rcases hword with ⟨-, rfl⟩ | ⟨-, rfl⟩ | ⟨-, rfl⟩ | ⟨-, rfl⟩ | ⟨-, rfl⟩ | ⟨-, rfl⟩ <;> trivial
  · obtain ⟨n, rfl⟩ | ⟨x, rfl⟩ := cases_of_number hnumber <;> trivial

/-- A reader that keeps the last value of a key leaves each key once. -/
theorem inherited_distinct (hlast : dialect.keepsRepeated = false) :
    Inherited dialect (fun _ => True) (fun _ => True) Distinct where
  left _ _ := trivial
  fine _ _ := trivial
  text _ := trivial
  atom _ h := distinct_of_atom h
  array _ := trivial
  object {members} h := by
    rw [Dialect.object, hlast, if_neg Bool.false_ne_true]
    refine ⟨Assoc.nodup_keys_insertAll List.nodup_nil, distinctMembers_iff.mpr fun m hm => ?_⟩
    rcases Assoc.mem_of_mem_insertAll hm with hnil | hm
    · cases hnil
    · exact (h m hm).2

end Json

namespace Environment

variable {lead : Text} {path : List Text} {v : Json} {members placed : List (Text × Json)}

theorem distinct_value {t : Text} (h : value path t = .ok v) : Distinct v := by
  unfold value at h
  split at h
  · cases h
    trivial
  · split at h
    next hread =>
      cases h
      have hlast : Json.Dialect.lenient.keepsRepeated = false := rfl
      exact (Json.inherited_distinct hlast).of_read trivial hread
    next =>
      cases h
      trivial
    all_goals cases h

theorem distinct_insert {key : Text} (hmembers : Distinct (.object members)) (hv : Distinct v) :
    Distinct (.object (Assoc.insert key v members)) :=
  ⟨Assoc.nodup_keys_insert hmembers.1, Json.distinctMembers_insert hmembers.2 hv⟩

theorem distinct_place (hv : Distinct v) (hmembers : Distinct (.object members))
    (h : place v path members = .ok placed) : Distinct (.object placed) := by
  fun_induction place v path members generalizing placed with
  | case1 members => cases h; exact hmembers
  | case2 key members => cases h; exact distinct_insert hmembers hv
  | case3 key next rest members hget ih =>
    obtain ⟨inner, hinner, rfl⟩ := exists_of_map_eq_ok h
    exact distinct_insert hmembers (ih ⟨List.nodup_nil, trivial⟩ hinner)
  | case4 key next rest members under hget ih =>
    obtain ⟨inner, hinner, rfl⟩ := exists_of_map_eq_ok h
    have hunder := Json.distinctMembers_iff.mp hmembers.2 _ (Assoc.mem_of_get? hget)
    exact distinct_insert hmembers (ih hunder hinner)
  | case5 key next rest members found hfound hget => cases h

theorem distinct_settings {env : List (Text × Text)} (h : settings lead env = .ok members) :
    Distinct (.object members) := by
  induction env using List.reverseRecOn generalizing members with
  | nil => cases h; exact ⟨List.nodup_nil, trivial⟩
  | append_singleton before v ih =>
    rw [settings_concat] at h
    obtain ⟨earlier, hbefore, hadd⟩ := exists_of_bind_eq_ok h
    cases hpath : path? lead v.1 with
    | none =>
      rw [add_of_none hpath] at hadd
      cases hadd
      exact ih hbefore
    | some path =>
      rw [add_of_path? hpath] at hadd
      obtain ⟨x, hx, hplace⟩ := exists_of_bind_eq_ok hadd
      exact distinct_place (distinct_value hx) (ih hbefore) hplace

end Environment

namespace Settings

/-! ### The members of all sources -/

/-- What the first of three mappings that has a field has there. -/
def firstFound (given environment document : List (Text × Json)) (section' key : Text) :
    Option Found :=
  (found? [section', key] (.object given)).or ((found? [section', key] (.object environment)).or
    (found? [section', key] (.object document)))

/-- The sections of a mapping are mappings, as far as it has them. -/
def Sectioned (members : List (Text × Json)) : Prop :=
  ∀ key ∈ sectionNames, ∀ x, found? [key] (.object members) ≠ some (.value x)

variable {base upper : List (Text × Json)} {section' key : Text}

theorem sectioned_iff :
    Sectioned upper ↔ ∀ key ∈ sectionNames, meetsValue [key] (.object upper) = false := by
  refine forall₂_congr fun key _ => ?_
  rw [Bool.eq_false_iff, Ne, Json.meetsValue_iff]
  constructor
  · rintro h ⟨q, hq, x, hx⟩
    rcases List.prefix_cons_iff.mp hq with rfl | ⟨last, rfl, hlast⟩
    · cases hx
    · exact h x (List.prefix_nil.mp hlast ▸ hx)
  · exact fun h x hx => h ⟨[key], List.prefix_refl _, x, hx⟩

instance : Decidable (Sectioned upper) := decidable_of_iff _ sectioned_iff.symm

theorem sectioned_overlay (hdistinct : Distinct (.object upper)) (hbase : Sectioned base)
    (hupper : Sectioned upper) : Sectioned (Json.overlay base upper) := by
  intro key hkey x
  rw [Json.found?_overlay hdistinct]
  intro h
  rcases Option.or_eq_some_iff.mp h with h | ⟨-, h⟩
  · exact hupper key hkey x h
  · split at h
    · cases h
    · exact hbase key hkey x h

/-- A field is in the upper mapping, or as it is below. -/
theorem found?_field_overlay (hdistinct : Distinct (.object upper)) (hupper : Sectioned upper)
    (hsection : section' ∈ sectionNames) :
    found? [section', key] (.object (Json.overlay base upper))
      = (found? [section', key] (.object upper)).or (found? [section', key] (.object base)) := by
  rw [Json.found?_overlay hdistinct]
  cases hfound : found? [section', key] (.object upper) with
  | some f => rfl
  | none =>
    have hfree : meetsValue [section', key] (.object upper) = false := by
      rw [Bool.eq_false_iff]
      intro hmeets
      obtain ⟨q, hq, x, hx⟩ := Json.meetsValue_iff.mp hmeets
      rcases List.prefix_cons_iff.mp hq with rfl | ⟨tail, rfl, htail⟩
      · cases hx
      · rcases List.prefix_cons_iff.mp htail with rfl | ⟨last, rfl, hlast⟩
        · exact hupper section' hsection x hx
        · rw [List.prefix_nil.mp hlast, hfound] at hx
          cases hx
    rw [hfree]
    rfl

/-- The settings depend on what the fields of their sections are read from. -/
theorem From.congr {found found' : Text → Text → Option Found} {settings : Settings}
    (h : settings.From found)
    (hsame : ∀ section' ∈ sectionNames, ∀ key, found section' key = found' section' key) :
    settings.From found' := by
  have hsections : found "feed" = found' "feed" ∧ found "aggregation" = found' "aggregation"
      ∧ found "storage" = found' "storage" ∧ found "logging" = found' "logging" := by
    refine ⟨?_, ?_, ?_, ?_⟩ <;> exact funext (hsame _ (by simp [sectionNames]))
  obtain ⟨hfeed, haggregation, hstorage, hlogging⟩ := hsections
  exact ⟨hfeed ▸ h.feed, haggregation ▸ h.aggregation, hstorage ▸ h.storage, hlogging ▸ h.logging⟩

namespace Sources

variable {s : Sources} {root : Nat} {document : List (Text × Yaml.Value)}
  {environment : List (Text × Json)}

/-- Every source is a mapping whose sections are mappings, and no mapping of the document stands
at two places. -/
structure Regular (s : Sources) (root : Nat) (document : List (Text × Yaml.Value))
    (environment : List (Text × Json)) : Prop where
  readsDocument : s.document = .ok (root, document)
  unshared : (Yaml.Value.labels (.mapping root document)).Nodup
  readsEnvironment : Environment.settings Environment.standardLead s.environment = .ok environment
  distinct : Distinct (.object s.given)
  sections : Sectioned s.given ∧ Sectioned environment
    ∧ Sectioned (Yaml.Value.toMembers document)

theorem distinct_document (h : s.document = .ok (root, document)) :
    Distinct (.object (Yaml.Value.toMembers document)) := by
  have hempty : Distinct (.object (Yaml.Value.toMembers [])) := ⟨List.nodup_nil, trivial⟩
  unfold Sources.document at h
  split at h
  next path hpath =>
    unfold mappingOfFile at h
    split at h
    · cases h
    · split at h
      · cases h
      · unfold mappingOfText at h
        split at h
        · cases h
        · cases h; exact hempty
        next hread => cases h; exact Yaml.distinct_of_read hread
        · cases h
  next => cases h; exact hempty

/-- Sources that can be read are laid over one another. -/
theorem members_of_read (hdocument : s.document = .ok (root, document))
    (henvironment : Environment.settings Environment.standardLead s.environment = .ok environment) :
    s.members = match ((Graph.add ⟨[]⟩ (.mapping root document)).overlay maxDescent root
        environment).bind (·.overlay maxDescent root s.given) with
      | none => .error .tooDeep
      | some g => .ok ((g.members root).map fun m => (m.1, g.unfold 1 m.2)) := by
  rw [Sources.members, hdocument, henvironment]
  rfl

/-- Down to the fields, the members of all sources are the mappings laid over one another. -/
theorem Regular.members (h : s.Regular root document environment) :
    s.members = .error .tooDeep ∨ ∃ members, s.members = .ok members ∧ Distinct (.object members)
      ∧ ∀ path, path.length ≤ 2 → found? path (.object members) = found? path (.object
        (Json.overlay (Json.overlay (Yaml.Value.toMembers document) environment) s.given)) := by
  have hstart : (Graph.add ⟨[]⟩ (.mapping root document)).Holds (.mapping root document) :=
    (Graph.add_spec _ _ h.unshared fun _ _ => rfl).1
  rw [members_of_read h.readsDocument h.readsEnvironment]
  cases hover : ((Graph.add ⟨[]⟩ (.mapping root document)).overlay maxDescent root
      environment).bind (·.overlay maxDescent root s.given) with
  | none => exact .inl rfl
  | some g =>
    obtain ⟨between, hbetween, hlast⟩ := Option.bind_eq_some_iff.mp hover
    have hfirst := Graph.follows_overlay environment hstart h.unshared hbetween
    have hsecond := Graph.follows_overlay s.given hfirst.holds (h.unshared.sublist hfirst.labels)
      hlast
    have hjson : Yaml.Value.toJson (.mapping root
        (Yaml.Value.overlay (Yaml.Value.overlay document environment) s.given)) = .object
        (Json.overlay (Json.overlay (Yaml.Value.toMembers document) environment) s.given) := by
      rw [Yaml.Value.toJson, Yaml.Value.toMembers_overlay, Yaml.Value.toMembers_overlay]
    have hdistinct := Json.distinct_object_overlay (Json.distinct_object_overlay
      (distinct_document h.readsDocument) (Environment.distinct_settings h.readsEnvironment)) h.distinct
    refine .inr ⟨_, rfl, ?_, fun path hpath => ?_⟩
    · have hunfold : Distinct (g.unfold 2 (.cell root)) :=
        Graph.distinct_unfold hsecond.holds (hjson ▸ hdistinct)
      exact hunfold
    · rw [← hjson]
      exact Graph.found?_unfold hpath hsecond.holds

/-- The sections of all sources together are mappings, and their fields are those of the first
source that has them. -/
theorem Regular.fields (h : s.Regular root document environment) :
    s.members = .error .tooDeep ∨ ∃ members, s.members = .ok members ∧ Distinct (.object members)
      ∧ Sectioned members
      ∧ ∀ section' ∈ sectionNames, ∀ key, found? [section', key] (.object members)
        = firstFound s.given environment (Yaml.Value.toMembers document) section' key := by
  obtain ⟨hgiven, henvironment, hdocument⟩ := h.sections
  have hdistinct := Environment.distinct_settings h.readsEnvironment
  refine h.members.imp_right ?_
  rintro ⟨members, hmembers, hmembersDistinct, hfound⟩
  refine ⟨members, hmembers, hmembersDistinct, fun key hkey x => ?_, fun section' hsection key => ?_⟩
  · rw [hfound [key] (by simp)]
    exact sectioned_overlay h.distinct (sectioned_overlay hdistinct hdocument henvironment) hgiven
      key hkey x
  · rw [hfound _ (by simp), found?_field_overlay h.distinct hgiven hsection,
      found?_field_overlay hdistinct henvironment hsection, firstFound]

end Sources

/-- Members that can be read are checked, and nothing else is looked at. -/
theorem load_of_members {s : Sources} {members : List (Text × Json)} (h : s.members = .ok members) :
    (load s).1 = match check members with
      | .passed settings => .ok settings
      | .failed complaints =>
        .error (if complaints.all (·.fault.isShowable) then .refused else .unshowable) := by
  rw [load, h]
  dsimp only
  cases check members with
  | passed settings => rfl
  | failed complaints =>
    dsimp only
    split <;> rfl

theorem load_eq_ok_iff {s : Sources} {members : List (Text × Json)} {settings : Settings}
    (h : s.members = .ok members) : (load s).1 = .ok settings
      ↔ (load s).1 ≠ .error .tooDeep ∧ check members = .passed settings := by
  rw [load_of_members h]
  cases check members with
  | passed a => simp
  | failed complaints =>
    dsimp only
    split <;> simp

/-- One mapping laid over another has the values of the upper one, and those of the lower one at
paths that lead nowhere in the upper one and meet no value of it; it has no others. Regular sources
give the settings whose every field is read from the first source that has it, unless they lie over
each other too deep. -/
theorem merged_by_precedence (base : List (Text × Json)) {upper : List (Text × Json)}
    (hupper : Distinct (.object upper)) :
    (∀ path x, found? path (.object (Json.overlay base upper)) = some (.value x)
      ↔ found? path (.object upper) = some (.value x)
        ∨ found? path (.object base) = some (.value x) ∧ found? path (.object upper) = none
          ∧ ∀ q, q <+: path → ∀ y, found? q (.object upper) ≠ some (.value y))
    ∧ Json.overlay (Json.overlay base upper) upper = Json.overlay base upper
    ∧ ∀ s root document environment, Sources.Regular s root document environment → ∀ settings,
      (load s).1 = .ok settings ↔ (load s).1 ≠ .error .tooDeep
        ∧ settings.From (firstFound s.given environment (Yaml.Value.toMembers document)) := by
  refine ⟨fun path x => Json.found?_overlay_eq_value_iff hupper, Json.overlay_overlay hupper base,
    fun s root document environment h settings => ?_⟩
  rcases h.fields with hdeep | ⟨members, hmembers, hdistinct, hsections, hfields⟩
  · have hload : (load s).1 = .error .tooDeep := by rw [load, hdeep]
    simp [hload]
  · rw [load_eq_ok_iff hmembers, check_eq_passed_iff hdistinct hsections]
    exact and_congr_right fun _ => ⟨fun hfrom => hfrom.congr hfields,
      fun hfrom => hfrom.congr fun section' hsection key => (hfields section' hsection key).symm⟩

deriving instance DecidableEq for SettingsError

/-- A settings file, and what lies over it. -/
def besideFile (content : Text) (environment : List (Text × Text)) (given : List (Text × Json)) :
    Sources :=
  ⟨⟨[(["settings.yaml"], .file (Utf8.encode content))], []⟩, some "settings.yaml", environment, given⟩

/-- Three fields of one section: two in the file, one of them in the environment too, and one that
is given. -/
def layered : Sources :=
  besideFile "aggregation:\n  min_reports: 5\n  max_age_seconds: 7\n"
    [("TELEMETRY_OBSERVER_AGGREGATION__MIN_REPORTS", "6")]
    [("aggregation", .object [("max_height_lag", .int 2)])]

/-- The members of a document whose mappings have these labels. -/
theorem exists_document {s : Sources} {labels : List Nat} {members : List (Text × Json)}
    (h : s.document.map (fun d => (Yaml.Value.labels (.mapping d.1 d.2), Yaml.Value.toMembers d.2))
      = .ok (labels, members)) : ∃ root document, s.document = .ok (root, document)
    ∧ Yaml.Value.labels (.mapping root document) = labels
    ∧ Yaml.Value.toMembers document = members := by
  obtain ⟨⟨root, document⟩, hdocument, heq⟩ := exists_of_map_eq_ok h
  rw [Prod.mk.injEq] at heq
  exact ⟨root, document, hdocument, heq⟩

theorem fields_of_layered : ∃ root document environment settings,
    Sources.Regular layered root document environment
    ∧ found? ["aggregation", "max_age_seconds"] (.object (Json.overlay
        (Yaml.Value.toMembers document) layered.given)) = some (.value (.int 7))
    ∧ (load layered).1 = .ok settings ∧ settings.aggregation = ⟨.standard, ⟨6, 7, 2⟩⟩
    ∧ settings.From (firstFound layered.given environment (Yaml.Value.toMembers document)) := by
  have hdocument : layered.document.map (fun d => (Yaml.Value.labels (.mapping d.1 d.2),
      Yaml.Value.toMembers d.2)) = .ok ([0, 1], [("aggregation",
        .object [("min_reports", .int 5), ("max_age_seconds", .int 7)])]) := by decide +kernel
  have henvironment : Environment.settings Environment.standardLead layered.environment
      = .ok [("aggregation", .object [("min_reports", .int 6)])] := by decide +kernel
  have hload : (load layered).1.map (·.aggregation) = .ok ⟨.standard, ⟨6, 7, 2⟩⟩ := by
    decide +kernel
  obtain ⟨root, document, hread, hlabels, hmembers⟩ := exists_document hdocument
  obtain ⟨settings, hsettings, haggregation⟩ := exists_of_map_eq_ok hload
  have hregular : Sources.Regular layered root document _ :=
    ⟨hread, hlabels ▸ by decide, henvironment, ⟨by decide, ⟨by decide, trivial, trivial⟩, trivial⟩,
      by decide +kernel, by decide +kernel, hmembers ▸ by decide +kernel⟩
  have hkept : found? ["aggregation", "max_age_seconds"] (.object (Yaml.Value.toMembers document))
      = some (.value (.int 7)) := by
    rw [hmembers]
    rfl
  have hmeets : ¬ meetsValue ["aggregation", "max_age_seconds"] (.object layered.given) = true := by
    decide +kernel
  have hfree : ∀ q : List Text, q <+: ["aggregation", "max_age_seconds"] →
      ∀ y, found? q (.object layered.given) ≠ some (.value y) :=
    fun q hq y hy => hmeets (Json.meetsValue_iff.mpr ⟨q, hq, y, hy⟩)
  obtain ⟨hpaths, -, hfields⟩ :=
    merged_by_precedence (Yaml.Value.toMembers document) hregular.distinct
  exact ⟨root, document, _, settings, hregular, (hpaths _ _).mpr (.inr ⟨hkept, rfl, hfree⟩),
    hsettings, haggregation, ((hfields _ _ _ _ hregular settings).mp hsettings).2⟩

/-- Both sections of the file are one mapping, and the environment has a field for one of them. -/
def aliased : Sources :=
  besideFile "feed: &s \x7b\x7d\naggregation: *s\n" [("TELEMETRY_OBSERVER_FEED__MIN_REPORTS", "9")] []

/-- A field meant for one section is read in another one, though no source has it there. -/
theorem shared_of_aliased : ∃ root document environment settings,
    aliased.document = .ok (root, document)
    ∧ Environment.settings Environment.standardLead aliased.environment = .ok environment
    ∧ Sectioned (Yaml.Value.toMembers document) ∧ Sectioned environment ∧ aliased.given = []
    ∧ found? ["aggregation", "min_reports"] (.object environment) = none
    ∧ found? ["aggregation", "min_reports"] (.object (Yaml.Value.toMembers document)) = none
    ∧ (load aliased).1 = .ok settings ∧ settings.aggregation.policy.minReports = 9 := by
  have hdocument : aliased.document.map (fun d => (Yaml.Value.labels (.mapping d.1 d.2),
      Yaml.Value.toMembers d.2)) = .ok ([0, 1, 1], [("feed", .object []),
        ("aggregation", .object [])]) := by decide +kernel
  have henvironment : Environment.settings Environment.standardLead aliased.environment
      = .ok [("feed", .object [("min_reports", .int 9)])] := by decide +kernel
  have hload : (load aliased).1.map (·.aggregation.policy.minReports) = .ok 9 := by decide +kernel
  obtain ⟨root, document, hread, -, hmembers⟩ := exists_document hdocument
  obtain ⟨settings, hsettings, hreports⟩ := exists_of_map_eq_ok hload
  refine ⟨root, document, _, settings, hread, henvironment, ?_, by decide +kernel, rfl,
    by rfl, ?_, hsettings, hreports⟩
  · exact hmembers ▸ by decide +kernel
  · rw [hmembers]
    rfl

end Settings

end AuthorWatch
