import AuthorWatch.Proofs.Settings.Complaints
import AuthorWatch.Proofs.Settings.JsonLike
import AuthorWatch.Proofs.Settings.Members

/-! One text for one setting, from a variable of the environment or from an option of the command
line. Both come to the same where the variable is not read as JSON. Texts that look like JSON are
no addresses of feeds and no log levels, and a hash is never read as JSON, so only the paths of
files differ: an option takes them as they are. -/

namespace AuthorWatch.Settings

open Json (found? Distinct)
open Environment (EnvironmentError standardLead path? value looksLikeJson)

variable {files : FileTree} {path : Option Text} {section' key name v : Text}
  {f : CommandLine.Setting} {x : Json} {settings : Settings}

/-- The settings with an option on the command line, after their sections and fields. -/
def options : List (Text × Text × CommandLine.Setting) :=
  CommandLine.Given.sections.flatMap fun (section', fields) =>
    fields.map fun (key, f) => (section', key, f)

/-- The field of the section has that option. -/
def IsOption (section' key : Text) (f : CommandLine.Setting) : Prop := (section', key, f) ∈ options

instance : Decidable (IsOption section' key f) := inferInstanceAs (Decidable (_ ∈ _))

theorem cases_of_option (h : IsOption section' key f) :
    (section', key, f) ∈ ([("feed", "genesis_hash", .genesisHash),
      ("feed", "telemetry_url", .telemetryUrl), ("storage", "output_path", .outputPath),
      ("storage", "nodes_file", .nodesFile), ("storage", "blocks_file", .blocksFile),
      ("logging", "level", .logLevel), ("logging", "file", .logFile)] :
        List (Text × Text × CommandLine.Setting)) := h

namespace Sources

/-- A settings file, and one variable of the environment. -/
def ofVariable (files : FileTree) (path : Option Text) (name v : Text) : Sources :=
  ⟨files, path, [(name, v)], []⟩

/-- A settings file, and one option of the command line. -/
def ofOption (files : FileTree) (path : Option Text) (f : CommandLine.Setting) (v : Text) :
    Sources :=
  ⟨files, path, [], CommandLine.Given.toSettings [(f, v)]⟩

end Sources

/-! ### Both as a field over the file -/

theorem ofOption_eq (h : IsOption section' key f) :
    Sources.ofOption files path f v = .withField files path section' key (.text v) := by
  have hcases := cases_of_option h
  simp only [List.mem_cons, Prod.mk.injEq, List.not_mem_nil, or_false] at hcases
  rcases hcases with ⟨rfl, rfl, rfl⟩ | ⟨rfl, rfl, rfl⟩ | ⟨rfl, rfl, rfl⟩ | ⟨rfl, rfl, rfl⟩
    | ⟨rfl, rfl, rfl⟩ | ⟨rfl, rfl, rfl⟩ | ⟨rfl, rfl, rfl⟩ <;> rfl

theorem settings_of_variable (hname : path? standardLead name = some [section', key]) :
    Environment.settings standardLead [(name, v)]
      = (value [section', key] v).map fun x => [(section', .object [(key, x)])] := by
  rw [Environment.settings, List.foldlM_cons, Environment.add_of_path? (v := (name, v)) hname]
  cases value [section', key] v <;> rfl

theorem members_ofVariable (hname : path? standardLead name = some [section', key])
    (hvalue : value [section', key] v = .ok x) :
    (Sources.ofVariable files path name v).members
      = (Sources.withField files path section' key x).members := by
  cases hdocument : (Sources.withField files path section' key x).document with
  | error e =>
    rw [Sources.members_of_document hdocument]
    exact Sources.members_of_document hdocument
  | ok found =>
    have hvariable : (Sources.ofVariable files path name v).document = .ok found := hdocument
    have henvironment : Environment.settings standardLead [(name, v)]
        = .ok [(section', .object [(key, x)])] := by rw [settings_of_variable hname, hvalue]; rfl
    rw [members_withField hdocument, Sources.members_of_read hvariable henvironment]
    cases (Graph.add ⟨[]⟩ (.mapping found.1 found.2)).overlay maxDescent found.1
      [(section', .object [(key, x)])] <;> rfl

/-- A variable that can be read lies over the file as an option with that value would. -/
theorem load_ofVariable (hname : path? standardLead name = some [section', key])
    (hvalue : value [section', key] v = .ok x) :
    load (.ofVariable files path name v) = load (.withField files path section' key x) := by
  rw [load, load, members_ofVariable hname hvalue]
  rfl

/-- A variable that cannot be read leaves no settings. -/
theorem load_ofVariable_of_error {e : EnvironmentError}
    (hname : path? standardLead name = some [section', key])
    (hvalue : value [section', key] v = .error e) (settings : Settings) :
    (load (.ofVariable files path name v)).1 ≠ .ok settings := by
  cases hdocument : (Sources.ofVariable files path name v).document with
  | error e' =>
    rw [Sources.load_of_error (Sources.members_of_document hdocument)]
    exact nofun
  | ok found =>
    have henvironment : Environment.settings standardLead [(name, v)] = .error e := by
      rw [settings_of_variable hname, hvalue]
      rfl
    rw [Sources.load_of_error (Sources.members_of_environment hdocument henvironment)]
    exact nofun

/-! ### What a setting is -/

/-- The setting is what the check of its field passes of a value. -/
def Takes (settings : Settings) (x : Json) : CommandLine.Setting → Prop
  | .genesisHash => FeedSettings.checkGenesis x = .passed settings.feed.genesis
  | .telemetryUrl => FeedSettings.checkAddress x = .passed settings.feed.address
  | .outputPath => Check.text x = .passed settings.storage.output
  | .nodesFile => Check.text x = .passed settings.storage.nodes
  | .blocksFile => Check.text x = .passed settings.storage.blocks
  | .logLevel => LogSettings.checkLevel x = .passed settings.logging.level
  | .logFile => Check.textOrNull x = .passed settings.logging.file
  | .config => True

/-- The path of a file among the settings. -/
def filePath (settings : Settings) : CommandLine.Setting → Option Text
  | .outputPath => some settings.storage.output
  | .nodesFile => some settings.storage.nodes
  | .blocksFile => some settings.storage.blocks
  | .logFile => settings.logging.file
  | _ => none

theorem passed_of_reads {α : Type} {read : Json → Check α} {fallback a : α}
    {found : Option Json.Found} {y : Json.Found} (h : Reads read fallback found a)
    (hfound : found = some y) : read y.toJson = .passed a := by
  rw [hfound] at h
  exact h

theorem takes_of_from {found : Text → Text → Option Json.Found} {y : Json.Found}
    (h : IsOption section' key f) (hfrom : settings.From found)
    (hfound : found section' key = some y) : settings.Takes y.toJson f := by
  have hcases := cases_of_option h
  simp only [List.mem_cons, Prod.mk.injEq, List.not_mem_nil, or_false] at hcases
  rcases hcases with ⟨rfl, rfl, rfl⟩ | ⟨rfl, rfl, rfl⟩ | ⟨rfl, rfl, rfl⟩ | ⟨rfl, rfl, rfl⟩
    | ⟨rfl, rfl, rfl⟩ | ⟨rfl, rfl, rfl⟩ | ⟨rfl, rfl, rfl⟩
  · exact passed_of_reads hfrom.feed.genesis hfound
  · exact passed_of_reads hfrom.feed.address hfound
  · exact passed_of_reads hfrom.storage.output hfound
  · exact passed_of_reads hfrom.storage.nodes hfound
  · exact passed_of_reads hfrom.storage.blocks hfound
  · exact passed_of_reads hfrom.logging.level hfound
  · exact passed_of_reads hfrom.logging.file hfound

theorem ne_config_of_option (h : IsOption section' key f) : f ≠ .config := by
  have hall : ∀ o ∈ options, o.2.2 ≠ .config := by decide
  exact hall _ h

theorem eq_text_of_passed {t : Text} (h : Check.text x = .passed t) : x = .text t := by
  cases x <;> cases h
  rfl

/-- A setting is a text, or it is the path of the log file and null. -/
theorem cases_of_takes (hf : f ≠ .config) (h : settings.Takes x f) :
    (∃ t, x = .text t) ∨ f = .logFile ∧ x = .null ∧ settings.logging.file = none := by
  cases f with
  | config => exact absurd rfl hf
  | genesisHash | telemetryUrl | logLevel =>
    obtain ⟨t, ht, -⟩ := Check.andThen_eq_passed_iff.mp h
    exact .inl ⟨t, eq_text_of_passed ht⟩
  | outputPath | nodesFile | blocksFile => exact .inl ⟨_, eq_text_of_passed h⟩
  | logFile =>
    cases x with
    | null => exact .inr ⟨rfl, rfl, (Check.passed.inj h).symm⟩
    | text t => exact .inl ⟨t, rfl⟩
    | _ => cases h

/-- The settings that come of one field over a file have it as it was given. -/
theorem takes_of_load (h : IsOption section' key f) (hx : Distinct x)
    (hload : (load (.withField files path section' key x)).1 = .ok settings) :
    settings.Takes x f := by
  have hne : section' ≠ key := by
    have hall : ∀ o ∈ options, o.1 ≠ o.2.1 := by decide
    exact hall _ h
  obtain ⟨found, hfrom, hfound⟩ := exists_from_of_withField hne hx hload
  cases x with
  | object members =>
    -- of an object it is only found that it is one, and no setting takes that
    have htakes := takes_of_from h hfrom hfound
    rcases cases_of_takes (ne_config_of_option h) htakes with ⟨t, ht⟩ | ⟨-, hnull, -⟩
    · cases ht
    · cases hnull
  | _ => exact takes_of_from h hfrom hfound

/-! ### How both end -/

/-- Both give the same settings, or both an error with a reason to tell. -/
def EndAlike (s s' : Sources) : Prop :=
  (∃ settings, (load s).1 = .ok settings ∧ (load s').1 = .ok settings)
  ∨ ∃ e e', (load s).1 = .error e ∧ (load s').1 = .error e' ∧ e.reason?.isSome ∧ e'.reason?.isSome

theorem reason_or_escape {s : Sources} (h : ∀ settings, (load s).1 ≠ .ok settings) :
    (∃ e, (load s).1 = .error e ∧ e.reason?.isSome) ∨ ∃ e, s.Escape e := by
  cases hload : (load s).1 with
  | ok settings => exact absurd hload (h settings)
  | error e =>
    cases hreason : e.reason? with
    | none => exact .inr ⟨e, Sources.escape_of_load hload hreason⟩
    | some reason => exact .inl ⟨e, rfl, by rw [hreason]; rfl⟩

theorem endAlike_of_eq {s s' : Sources} (h : load s = load s') :
    EndAlike s s' ∨ ∃ e, s.Escape e ∨ s'.Escape e := by
  cases hload : (load s).1 with
  | ok settings => exact .inl (.inl ⟨settings, hload, h ▸ hload⟩)
  | error e =>
    rcases reason_or_escape (s := s) (by simp [hload]) with ⟨e, he, hreason⟩ | ⟨e, hescape⟩
    · exact .inl (.inr ⟨e, e, he, h ▸ he, hreason, hreason⟩)
    · exact .inr ⟨e, .inl hescape⟩

theorem endAlike_of_errors {s s' : Sources} (h : ∀ settings, (load s).1 ≠ .ok settings)
    (h' : ∀ settings, (load s').1 ≠ .ok settings) :
    EndAlike s s' ∨ ∃ e, s.Escape e ∨ s'.Escape e := by
  rcases reason_or_escape h with ⟨e, he, hreason⟩ | ⟨e, hescape⟩
  · rcases reason_or_escape h' with ⟨e', he', hreason'⟩ | ⟨e', hescape'⟩
    · exact .inl (.inr ⟨e, e', he, he', hreason, hreason'⟩)
    · exact .inr ⟨e', .inr hescape'⟩
  · exact .inr ⟨e, .inl hescape⟩

/-- Without a file, one field whose text can be shown leads to nothing that is not provided for. -/
theorem not_escape_withField (hx : ∀ t, x = .text t → t.encodable = true) (e : SettingsError) :
    ¬ (Sources.withField files none section' key x).Escape e := by
  intro h
  cases h with
  | undecodable hpath | document hpath => cases hpath
  | unreadable _ hsplit | blocked _ hsplit =>
    exact List.append_ne_nil_of_right_ne_nil _ (List.cons_ne_nil _ _) hsplit.symm
  | tooDeep hdocument henvironment hover =>
    cases hdocument
    cases henvironment
    cases hover
  | @unshowable members complaints c hmembers hcheck hmem hshow =>
    have honly : (Sources.withField files none section' key x).members
        = .ok [(section', .object [(key, x)])] := rfl
    cases honly.symm.trans hmembers
    have htext : ∀ {other field : Text} {inner v t},
        Json.member? other [(section', .object [(key, x)])] = some (.object inner) →
        Json.member? field inner = some v → v = .text t → t.encodable = true := by
      intro other field inner v t hinner hv ht
      obtain ⟨-, ⟨⟩⟩ := Prod.mk.inj (List.mem_singleton.mp (Assoc.mem_of_get? hinner))
      obtain ⟨-, rfl⟩ := Prod.mk.inj (List.mem_singleton.mp (Assoc.mem_of_get? hv))
      exact hx t ht
    have hshows := shows_check (fun _ _ _ => htext) fun _ _ _ => htext
    rw [hcheck] at hshows
    rw [hshows c hmem] at hshow
    cases hshow

/-! ### Variables and options -/

/-- The settings that are paths of files. -/
def fileOptions : List CommandLine.Setting := [.outputPath, .nodesFile, .blocksFile, .logFile]

/-- A hash is always taken as a text. -/
theorem value_of_genesisHash (h : IsOption section' key .genesisHash) (v : Text) :
    value [section', key] v = .ok (.text v) := by
  have hall : ∀ o ∈ options, o.2.2 = .genesisHash → o.1 = "feed" ∧ o.2.1 = "genesis_hash" := by
    decide
  obtain ⟨rfl, rfl⟩ := hall _ h rfl
  rfl

/-- A value that is not taken as a text looks like JSON. -/
theorem looksLikeJson_of_value (h : value [section', key] v ≠ .ok (.text v)) :
    looksLikeJson v = true := by
  by_contra hlooks
  refine h ?_
  rw [value, if_pos (by simp [hlooks])]

/-- Of a text that looks like JSON no option makes an address or a level. -/
theorem load_ofOption_of_looksLikeJson (h : IsOption section' key f) (hf : f ∉ fileOptions)
    (hgenesis : f ≠ .genesisHash) (hlooks : looksLikeJson v = true) (settings : Settings) :
    (load (.ofOption files path f v)).1 ≠ .ok settings := by
  rw [ofOption_eq h]
  intro hload
  have htakes := takes_of_load (x := .text v) h trivial hload
  cases f with
  | telemetryUrl => exact Environment.checkAddress_of_looksLikeJson hlooks _ htakes
  | logLevel => exact Environment.checkLevel_of_looksLikeJson hlooks _ htakes
  | genesisHash => exact hgenesis rfl
  | outputPath | nodesFile | blocksFile | logFile => exact hf (by decide)
  | config => exact ne_config_of_option h rfl

/-- Of a value that is not taken as a text a variable makes no settings, unless it is null for the
log file. -/
theorem cases_of_load_ofVariable (h : IsOption section' key f)
    (hname : path? standardLead name = some [section', key])
    (hvalue : value [section', key] v ≠ .ok (.text v))
    (hload : (load (.ofVariable files path name v)).1 = .ok settings) :
    value [section', key] v = .ok .null ∧ f = .logFile ∧ settings.logging.file = none := by
  cases hx : value [section', key] v with
  | error e => exact absurd hload (load_ofVariable_of_error hname hx settings)
  | ok x =>
    rw [load_ofVariable hname hx] at hload
    have hne : x ≠ .text v := fun heq => hvalue (heq ▸ hx)
    have htakes := takes_of_load h (Environment.distinct_value hx) hload
    rcases cases_of_takes (ne_config_of_option h) htakes with ⟨t, ht⟩ | ⟨hf, rfl, hnone⟩
    · exact absurd ht ((Environment.ne_text_of_value hx hne).2 t)
    · exact ⟨rfl, hf, hnone⟩

theorem filePath_of_takes (hf : f ∈ fileOptions) (h : settings.Takes (.text v) f) :
    settings.filePath f = some v := by
  simp only [fileOptions, List.mem_cons, List.not_mem_nil, or_false] at hf
  rcases hf with rfl | rfl | rfl | rfl
  · exact congrArg some (Check.passed.inj h).symm
  · exact congrArg some (Check.passed.inj h).symm
  · exact congrArg some (Check.passed.inj h).symm
  · exact (Check.passed.inj h).symm

/-- A variable whose value is taken as a text leads to the same as the option with that text. If the
setting is no path of a file, both end alike whatever the value is, unless something happens that
nothing provides for; without a settings file that needs a value that cannot be read or cannot be
shown. The path of a file is otherwise not taken from the variable, and null leaves the log without
a file; the option takes the path as it is. -/
theorem variable_ends_as_option (files : FileTree) (path : Option Text)
    (h : IsOption section' key f) (hname : path? standardLead name = some [section', key])
    (v : Text) :
    let s := Sources.ofVariable files path name v
    let s' := Sources.ofOption files path f v
    (value [section', key] v = .ok (.text v) → load s = load s')
    ∧ (f ∉ fileOptions ∨ value [section', key] v = .ok (.text v) →
      EndAlike s s' ∨ ∃ e, s.Escape e ∨ s'.Escape e)
    ∧ (f ∈ fileOptions → value [section', key] v ≠ .ok (.text v) → ∀ settings,
      ((load s).1 = .ok settings → value [section', key] v = .ok .null ∧ f = .logFile
        ∧ settings.filePath f = none)
      ∧ ((load s').1 = .ok settings → settings.filePath f = some v))
    ∧ (path = none → v.encodable = true → (∃ x, value [section', key] v = .ok x) →
      ∀ e, ¬ s.Escape e ∧ ¬ s'.Escape e) := by
  intro s s'
  have hsame : value [section', key] v = .ok (.text v) → load s = load s' := by
    intro hvalue
    rw [load_ofVariable hname hvalue, ← ofOption_eq h]
  refine ⟨hsame, ?_, ?_, ?_⟩
  · intro hcases
    by_cases hvalue : value [section', key] v = .ok (.text v)
    · exact endAlike_of_eq (hsame hvalue)
    · have hf : f ∉ fileOptions := hcases.resolve_right hvalue
      have hgenesis : f ≠ .genesisHash := by
        rintro rfl
        exact hvalue (value_of_genesisHash h v)
      refine endAlike_of_errors ?_
        (load_ofOption_of_looksLikeJson h hf hgenesis (looksLikeJson_of_value hvalue))
      intro settings hload
      obtain ⟨-, rfl, -⟩ := cases_of_load_ofVariable h hname hvalue hload
      exact hf (by decide)
  · intro hf hvalue settings
    constructor
    · intro hload
      obtain ⟨hnull, rfl, hnone⟩ := cases_of_load_ofVariable h hname hvalue hload
      exact ⟨hnull, rfl, hnone⟩
    · intro hload
      have hload : (load (.ofOption files path f v)).1 = .ok settings := hload
      rw [ofOption_eq h] at hload
      exact filePath_of_takes hf (takes_of_load (x := .text v) h trivial hload)
  · rintro rfl hshown ⟨x, hx⟩ e
    -- what was read as JSON is no text, so no complaint quotes it
    have hencodable : ∀ t, x = .text t → t.encodable = true := by
      rintro t rfl
      by_cases heq : Json.text t = .text v
      · cases heq
        exact hshown
      · exact absurd rfl ((Environment.ne_text_of_value hx heq).2 t)
    constructor
    · intro hescape
      obtain ⟨hload, hreason⟩ := Sources.load_of_escape hescape
      rw [load_ofVariable hname hx] at hload
      exact not_escape_withField hencodable e (Sources.escape_of_load hload hreason)
    · show ¬ (Sources.ofOption files none f v).Escape e
      rw [ofOption_eq h]
      refine not_escape_withField ?_ e
      rintro t ⟨⟩
      exact hshown

/-- The word for a level reads as a flag from the environment, and neither way gives a level. -/
theorem endAlike_of_flagLevel :
    IsOption "logging" "level" .logLevel
    ∧ path? standardLead "TELEMETRY_OBSERVER_LOGGING__LEVEL"
      = some (["logging", "level"] : List Text)
    ∧ value ["logging", "level"] "TRUE" = .ok (.bool true)
    ∧ EndAlike (.ofVariable ⟨[], []⟩ none "TELEMETRY_OBSERVER_LOGGING__LEVEL" "TRUE")
      (.ofOption ⟨[], []⟩ none .logLevel "TRUE") := by
  have hvalue : value ["logging", "level"] "TRUE" = .ok (.bool true) := rfl
  have hoption : IsOption "logging" "level" .logLevel := by decide
  have hname : path? standardLead "TELEMETRY_OBSERVER_LOGGING__LEVEL"
      = some (["logging", "level"] : List Text) := by decide +kernel
  obtain ⟨-, halike, -, hnone⟩ := variable_ends_as_option ⟨[], []⟩ none
    hoption hname "TRUE"
  refine ⟨hoption, hname, hvalue, (halike (.inl (by decide))).resolve_right ?_⟩
  rintro ⟨e, hescape⟩
  have hnot := hnone rfl (by decide) ⟨_, hvalue⟩ e
  exact hescape.elim hnot.1 hnot.2

/-- A path of digits reads as a number from the environment, which is no path. -/
theorem digits_differ :
    IsOption "storage" "output_path" .outputPath
    ∧ path? standardLead "TELEMETRY_OBSERVER_STORAGE__OUTPUT_PATH"
      = some (["storage", "output_path"] : List Text)
    ∧ (load (.ofVariable ⟨[], []⟩ none "TELEMETRY_OBSERVER_STORAGE__OUTPUT_PATH" "5")).1
      = .error .refused
    ∧ (load (.ofOption ⟨[], []⟩ none .outputPath "5")).1.map (·.storage.output) = .ok "5"
    ∧ ¬ EndAlike (.ofVariable ⟨[], []⟩ none "TELEMETRY_OBSERVER_STORAGE__OUTPUT_PATH" "5")
      (.ofOption ⟨[], []⟩ none .outputPath "5") := by
  have hvariable : (load (.ofVariable ⟨[], []⟩ none "TELEMETRY_OBSERVER_STORAGE__OUTPUT_PATH"
      "5")).1 = .error .refused := by decide +kernel
  have hoption : (load (.ofOption ⟨[], []⟩ none .outputPath "5")).1.map (·.storage.output)
      = .ok "5" := by decide +kernel
  refine ⟨by decide, by decide +kernel, hvariable, hoption, ?_⟩
  rintro (⟨settings, hsettings, -⟩ | ⟨e, e', -, he', -⟩)
  · rw [hvariable] at hsettings
    cases hsettings
  · rw [he'] at hoption
    cases hoption

end AuthorWatch.Settings
