import AuthorWatch.Program
import AuthorWatch.Proofs.Settings.Sources

/-! How reading the settings ends. It gives settings whose every field is valid, or an error that
has a reason to tell, with which the program ends; or one of five things happened that nothing
provides for, and then the error that comes from below leaves the program as it is. -/

namespace AuthorWatch

open Environment (EnvironmentError)

/-! ### Valid settings -/

namespace Check

variable {α : Type} {P : α → Prop} {fallback a : α} {read : Json → Check α} {key : Text}
  {members : List (Text × Json)}

/-- A field has what its check passes, or its default. -/
theorem holds_of_optional (h : optional fallback read key members = passed a)
    (hread : ∀ v a, read v = passed a → P a) (hfallback : P fallback) : P a := by
  rcases exists_of_optional h with rfl | ⟨v, hv⟩
  · exact hfallback
  · exact hread v a hv

theorem isPositive_of_positive {v : Json} {x : Binary64} (h : positive v = passed x) :
    x.isPositive = true := by
  obtain ⟨y, -, hy⟩ := andThen_eq_passed_iff.mp h
  split_ifs at hy with hpositive
  cases hy
  exact hpositive

theorem isNonneg_of_nonnegative {v : Json} {x : Binary64} (h : nonnegative v = passed x) :
    x.isNonneg = true := by
  obtain ⟨y, -, hy⟩ := andThen_eq_passed_iff.mp h
  split_ifs at hy with hnonneg
  cases hy
  exact hnonneg

theorem isPositive_of_positiveOrNull {v : Json} {found : Option Binary64}
    (h : positiveOrNull v = passed found) : ∀ x ∈ found, x.isPositive = true := by
  unfold positiveOrNull at h
  split_ifs at h
  · cases h
    exact nofun
  · obtain ⟨x, hx, rfl⟩ := map_eq_passed_iff.mp h
    exact fun y hy => Option.mem_some_iff.mp hy ▸ isPositive_of_positive hx

theorem pos_of_count {v : Json} {n : Nat}
    (h : Int.toNat <$> integerAbove 0 v = passed n) : 0 < n := by
  obtain ⟨m, hm, rfl⟩ := map_eq_passed_iff.mp h
  have := lt_of_integerAbove hm
  omega

end Check

/-- What the checks promise of the fields of a section. -/
structure FeedSettings.Valid (s : FeedSettings) : Prop where
  address : ∃ a, Address.split s.address = .ok a ∧ a.isFeed = true
  genesis : s.genesis.encodable = true ∧ s.genesis ≠ []
  reconnectDelay : s.reconnectDelay.isNonneg = true
  openTimeout : s.openTimeout.isPositive = true
  pingInterval : ∀ x ∈ s.pingInterval, x.isPositive = true
  pingTimeout : ∀ x ∈ s.pingTimeout, x.isPositive = true
  maxMessageBytes : 0 < s.maxMessageBytes
  queueSize : 0 < s.queueSize

structure AggregationSettings.Valid (s : AggregationSettings) : Prop where
  minReports : 0 < s.policy.minReports
  maxAge : 0 ≤ s.policy.maxAge
  maxLag : 0 ≤ s.policy.maxLag

structure Settings.Valid (s : Settings) : Prop where
  feed : s.feed.Valid
  aggregation : s.aggregation.Valid

variable {members : List (Text × Json)}

theorem FeedSettings.valid_address {v : Json} {t : Text} (h : checkAddress v = .passed t) :
    ∃ a, Address.split t = .ok a ∧ a.isFeed = true := by
  obtain ⟨u, -, hu⟩ := Check.andThen_eq_passed_iff.mp h
  split at hu
  · cases hu
  next a ha =>
    split_ifs at hu with hfeed
    cases hu
    exact ⟨a, ha, hfeed⟩

theorem FeedSettings.valid_defaultAddress :
    ∃ a, Address.split defaultAddress = .ok a ∧ a.isFeed = true := by
  have hfeed : (Address.split defaultAddress).map Address.isFeed = .ok true := by decide +kernel
  exact exists_of_map_eq_ok hfeed

theorem FeedSettings.valid_genesis {v : Json} {t : Text} (h : checkGenesis v = .passed t) :
    t.encodable = true ∧ t ≠ [] := by
  obtain ⟨u, -, hu⟩ := Check.andThen_eq_passed_iff.mp h
  split_ifs at hu with hencodable hempty
  cases hu
  exact ⟨by simpa using hencodable, by simpa using hempty⟩

theorem FeedSettings.valid_of_check {s : FeedSettings} (h : check members = .passed s) :
    s.Valid := by
  obtain ⟨⟩ := s
  simp only [check, Nat.reduceMul, Check.seq_eq_passed_iff, Check.map_eq_passed_iff,
    exists_and_left, exists_exists_and_eq_and, exists_exists_and_exists_and_eq_and, ↓existsAndEq,
    and_true, and_assoc, mk.injEq] at h
  obtain ⟨haddress, hgenesis, hdelay, hopen, hinterval, htimeout, hbytes, hqueue⟩ := h
  have address := Check.holds_of_optional haddress (fun _ _ => valid_address) valid_defaultAddress
  have genesis := Check.holds_of_optional hgenesis (fun _ _ => valid_genesis) (by decide +kernel)
  have delay := Check.holds_of_optional hdelay (fun _ _ => Check.isNonneg_of_nonnegative)
    (by decide +kernel)
  have openTimeout := Check.holds_of_optional hopen (fun _ _ => Check.isPositive_of_positive)
    (by decide +kernel)
  have interval := Check.holds_of_optional hinterval
    (fun _ _ => Check.isPositive_of_positiveOrNull) (by decide +kernel)
  have timeout := Check.holds_of_optional htimeout
    (fun _ _ => Check.isPositive_of_positiveOrNull) (by decide +kernel)
  have bytes := Check.holds_of_optional hbytes (fun _ _ => Check.pos_of_count) (by decide)
  have queue := Check.holds_of_optional hqueue (fun _ _ => Check.pos_of_count) (by decide)
  exact ⟨address, genesis, delay, openTimeout, interval, timeout, bytes, queue⟩

theorem AggregationSettings.valid_of_check {s : AggregationSettings}
    (h : check members = .passed s) : s.Valid := by
  obtain ⟨_, ⟨⟩⟩ := s
  simp only [check, Check.seq_eq_passed_iff, Check.map_eq_passed_iff, exists_and_left,
    exists_exists_and_eq_and, exists_exists_and_exists_and_eq_and, ↓existsAndEq, and_true, mk.injEq,
    Policy.mk.injEq, and_assoc] at h
  obtain ⟨-, hreports, hage, hlag⟩ := h
  exact ⟨Check.holds_of_optional hreports (fun _ _ => Check.lt_of_integerAbove) (by decide),
    Check.holds_of_optional hage (fun _ _ => Check.le_of_integerAtLeast) (by decide),
    Check.holds_of_optional hlag (fun _ _ => Check.le_of_integerAtLeast) (by decide)⟩

namespace Settings

theorem exists_of_sectionOf {α : Type} {key name : Text} {check : List (Text × Json) → Check α}
    {a : α} (h : sectionOf key name check members = .passed a) :
    ∃ inner, check inner = .passed a := by
  unfold sectionOf at h
  cases hget : Json.member? key members with
  | none => rw [hget] at h; exact ⟨[], h⟩
  | some v =>
    rw [hget] at h
    have hv : Check.inSection name check v = .passed a := Check.under_eq_passed_iff.mp h
    cases v with
    | object inner => exact ⟨inner, hv⟩
    | _ => cases hv

/-- Settings that pass their check are valid. -/
theorem valid_of_check {s : Settings} (h : check members = .passed s) : s.Valid := by
  obtain ⟨⟩ := s
  simp only [check, Check.seq_eq_passed_iff, Check.map_eq_passed_iff, exists_and_left,
    exists_exists_and_eq_and, exists_exists_and_exists_and_eq_and, ↓existsAndEq, and_true, mk.injEq,
    and_assoc] at h
  obtain ⟨hfeed, haggregation, -⟩ := h
  obtain ⟨feed, hfeed⟩ := exists_of_sectionOf hfeed
  obtain ⟨aggregation, haggregation⟩ := exists_of_sectionOf haggregation
  exact ⟨FeedSettings.valid_of_check hfeed, AggregationSettings.valid_of_check haggregation⟩

end Settings

/-! ### Laying over, far down -/

namespace Json

mutual

/-- How many objects stand in one another. -/
def height : Json → Nat
  | object members => heightOf members + 1
  | _ => 0

def heightOf : List (Text × Json) → Nat
  | [] => 0
  | (_, v) :: rest => max (height v) (heightOf rest)

end

mutual

theorem descent_le : ∀ (members base : List (Text × Json)), descent base members ≤ heightOf members
  | [], _ => Nat.le_refl 0
  | (key, v) :: rest, base => by
    have hv := descentValue_le v (Assoc.get? key base)
    have hrest := descent_le rest base
    rw [descent, heightOf]
    omega

theorem descentValue_le : ∀ (v : Json) (below : Option Json), descentValue below v ≤ height v
  | object members, below => by
    cases below with
    | none => simp [descentValue]
    | some w =>
      cases w with
      | object base => exact Nat.succ_le_succ (descent_le members base)
      | _ => simp [descentValue]
  | null, _ | bool _, _ | int _, _ | float _, _ | text _, _ | array _, _ => Nat.le_refl 0

end

end Json

namespace Graph

open Json (height heightOf)

mutual

/-- Members that stand no further down than the depth can be laid over every mapping. -/
theorem isSome_overlay : ∀ (upper : List (Text × Json)) {depth : Nat} {g : Graph} {label : Nat},
    heightOf upper ≤ depth → (overlay depth g label upper).isSome
  | [], _, _, _, _ => rfl
  | (key, v) :: rest, depth, g, label, h => by
    rw [heightOf, Nat.max_le] at h
    obtain ⟨between, hbetween⟩ := Option.isSome_iff_exists.mp (isSome_overlayAt v h.1)
    rw [overlay, hbetween]
    exact isSome_overlay rest h.2

theorem isSome_overlayAt : ∀ (v : Json) {depth : Nat} {g : Graph} {label : Nat} {key : Text},
    height v ≤ depth → (overlayAt depth g label key v).isSome
  | .object upper, depth, g, label, key, h => by
    rw [height] at h
    unfold overlayAt
    split
    · exact absurd h (Nat.not_succ_le_zero _)
    · rw [Option.isSome_map]
      exact isSome_overlay upper (Nat.le_of_succ_le_succ h)
    next base _ =>
      have hdescent := Json.descent_le upper base
      rw [if_pos (by omega)]
      rfl
    · rfl
  | .null, _, _, _, _, _ | .bool _, _, _, _, _, _ | .int _, _, _, _, _, _
  | .float _, _, _, _, _, _ | .text _, _, _, _, _, _ | .array _, _, _, _, _, _ => rfl

end

end Graph

/-! ### Errors without a reason to tell -/

namespace Settings

namespace Sources

variable {s : Sources} {e : SettingsError}

/-- What nothing provides for: a file that is no text; a document with a fault that is not one of
form; a variable whose value cannot be read, or in whose way stands another value; mappings that
lie over each other too far down; and a text in a complaint that cannot be shown. -/
inductive Escape (s : Sources) : SettingsError → Prop where
  | undecodable {path : Text} {bytes : List UInt8} (hpath : s.path = some path)
    (hbytes : s.files.read (.ofText path) = .ok bytes) (htext : Utf8.decode? bytes = none) :
    Escape s .undecodable
  | document {path t : Text} {bytes : List UInt8} {e : YamlError} (hpath : s.path = some path)
    (hbytes : s.files.read (.ofText path) = .ok bytes) (htext : Utf8.decode? bytes = some t)
    (hread : Yaml.read t.withPlainLineEnds = .error e) (hform : e.isForm = false) :
    Escape s (.document (.ofText path) e)
  | unreadable {found before after members path} {v : Text × Text} {e : EnvironmentError}
    (hdocument : s.document = .ok found) (hsplit : s.environment = before ++ v :: after)
    (hbefore : Environment.settings Environment.standardLead before = .ok members)
    (hpath : Environment.path? Environment.standardLead v.1 = some path)
    (hvalue : Environment.value path v.2 = .error e) : Escape s (.environment e)
  | blocked {found before after members path} {v : Text × Text} {x : Json} {e : EnvironmentError}
    (hdocument : s.document = .ok found) (hsplit : s.environment = before ++ v :: after)
    (hbefore : Environment.settings Environment.standardLead before = .ok members)
    (hpath : Environment.path? Environment.standardLead v.1 = some path)
    (hvalue : Environment.value path v.2 = .ok x)
    (hblocked : Environment.Blocked path (.object members) e) : Escape s (.environment e)
  | tooDeep {root document environment} (hdocument : s.document = .ok (root, document))
    (henvironment : Environment.settings Environment.standardLead s.environment = .ok environment)
    (hover : ((Graph.add ⟨[]⟩ (.mapping root document)).overlay maxDescent root environment).bind
      (·.overlay maxDescent root s.given) = none) : Escape s .tooDeep
  | unshowable {members complaints} {c : Complaint} (hmembers : s.members = .ok members)
    (hcheck : check members = .failed complaints) (hmem : c ∈ complaints)
    (hshow : c.fault.isShowable = false) : Escape s .unshowable

theorem load_of_error (h : s.members = .error e) : (load s).1 = .error e := by rw [load, h]

theorem members_of_document (h : s.document = .error e) : s.members = .error e := by
  rw [Sources.members, h]
  rfl

theorem members_of_environment {found} {e : EnvironmentError} (hdocument : s.document = .ok found)
    (h : Environment.settings Environment.standardLead s.environment = .error e) :
    s.members = .error (.environment e) := by
  rw [Sources.members, hdocument, h]
  rfl

/-- The error of a file, if it has no reason to tell. -/
theorem escape_of_document (h : s.document = .error e) (hreason : e.reason? = none) :
    s.Escape e := by
  unfold Sources.document at h
  split at h
  next path hpath =>
    unfold mappingOfFile at h
    split at h
    · cases h
      cases hreason
    next bytes hbytes =>
      split at h
      next htext =>
        cases h
        exact .undecodable hpath hbytes htext
      next t htext =>
        unfold mappingOfText at h
        split at h
        next fault hread =>
          cases h
          refine .document hpath hbytes htext hread ?_
          cases fault <;> first | rfl | cases hreason
        · cases h
        · cases h
        · cases h
          cases hreason
  next => cases h

theorem escape_of_environment {found} {e : EnvironmentError} (hdocument : s.document = .ok found)
    (h : Environment.settings Environment.standardLead s.environment = .error e) :
    s.Escape (.environment e) := by
  obtain ⟨before, v, after, members, hsplit, hbefore, hadd⟩ :=
    Environment.settings_eq_error_iff.mp h
  obtain ⟨path, hpath, hvalue | ⟨⟨x, hvalue⟩, hblocked⟩⟩ := Environment.add_eq_error_iff.mp hadd
  · exact .unreadable hdocument hsplit hbefore hpath hvalue
  · exact .blocked hdocument hsplit hbefore hpath hvalue hblocked

/-- What nothing provides for ends the reading, and has no reason to tell. -/
theorem load_of_escape (h : s.Escape e) : (load s).1 = .error e ∧ e.reason? = none := by
  cases h with
  | undecodable hpath hbytes htext =>
    refine ⟨load_of_error (members_of_document ?_), rfl⟩
    simp only [Sources.document, hpath, mappingOfFile, hbytes, htext]
  | @document path t bytes e hpath hbytes htext hread hform =>
    refine ⟨load_of_error (members_of_document ?_), ?_⟩
    · simp only [Sources.document, hpath, mappingOfFile, hbytes, htext, mappingOfText, hread]
    · cases e <;> first | rfl | cases hform
  | unreadable hdocument hsplit hbefore hpath hvalue =>
    refine ⟨load_of_error (members_of_environment hdocument ?_), rfl⟩
    exact Environment.settings_eq_error_iff.mpr ⟨_, _, _, _, hsplit, hbefore,
      Environment.add_eq_error_iff.mpr ⟨_, hpath, .inl hvalue⟩⟩
  | blocked hdocument hsplit hbefore hpath hvalue hblocked =>
    refine ⟨load_of_error (members_of_environment hdocument ?_), rfl⟩
    exact Environment.settings_eq_error_iff.mpr ⟨_, _, _, _, hsplit, hbefore,
      Environment.add_eq_error_iff.mpr ⟨_, hpath, .inr ⟨⟨_, hvalue⟩, hblocked⟩⟩⟩
  | tooDeep hdocument henvironment hover =>
    refine ⟨load_of_error ?_, rfl⟩
    rw [members_of_read hdocument henvironment, hover]
  | @unshowable members complaints c hmembers hcheck hmem hshow =>
    have hall : ¬ complaints.all (·.fault.isShowable) = true := by
      rw [List.all_eq_true]
      exact fun hall => Bool.false_ne_true (hshow.symm.trans (hall c hmem))
    rw [load_of_members hmembers, hcheck]
    exact ⟨congrArg Except.error (if_neg hall), rfl⟩

/-- There is no other error without a reason to tell. -/
theorem escape_of_load (h : (load s).1 = .error e) (hreason : e.reason? = none) : s.Escape e := by
  cases hdocument : s.document with
  | error e' =>
    rw [load_of_error (members_of_document hdocument), Except.error.injEq] at h
    exact escape_of_document (h ▸ hdocument) hreason
  | ok found =>
    cases henvironment : Environment.settings Environment.standardLead s.environment with
    | error e' =>
      rw [load_of_error (members_of_environment hdocument henvironment),
        Except.error.injEq] at h
      exact h ▸ escape_of_environment hdocument henvironment
    | ok environment =>
      have hmembers := members_of_read hdocument henvironment
      split at hmembers
      next hover =>
        rw [load_of_error hmembers, Except.error.injEq] at h
        exact h ▸ .tooDeep hdocument henvironment hover
      next g hover =>
        rw [load_of_members hmembers] at h
        split at h
        · cases h
        next complaints hcheck =>
          split_ifs at h with hall
          · cases h
            cases hreason
          · cases h
            rw [List.all_eq_true] at hall
            push Not at hall
            obtain ⟨c, hmem, hshow⟩ := hall
            exact .unshowable hmembers hcheck hmem (Bool.eq_false_iff.mpr hshow)

/-- Only what stands further down than that can lie over something too far down. -/
theorem Escape.lt_height (h : s.Escape .tooDeep) : maxDescent < Json.heightOf s.given
    ∨ ∃ environment, Environment.settings Environment.standardLead s.environment = .ok environment
      ∧ maxDescent < Json.heightOf environment := by
  cases h with
  | @tooDeep root document environment hdocument henvironment hover =>
    by_contra hlow
    push Not at hlow
    obtain ⟨hgiven, hlow⟩ := hlow
    obtain ⟨between, hbetween⟩ := Option.isSome_iff_exists.mp
      (Graph.isSome_overlay environment (hlow environment henvironment))
    obtain ⟨last, hlast⟩ := Option.isSome_iff_exists.mp (Graph.isSome_overlay s.given hgiven)
    rw [hbetween, Option.bind_some, hlast] at hover
    cases hover

end Sources

theorem run_of_error (w : Program.World) {arguments : List Text} {given : CommandLine.Given}
    {e : SettingsError} (hparse : CommandLine.parse arguments = .ok given)
    (hload : (load (Program.sources w.files w.environment given)).1 = .error e) :
    (Program.run w arguments).files = w.files ∧ (Program.run w arguments).feed = none
      ∧ (Program.run w arguments).ending
        = match e.reason? with
          | some _ => .status 1
          | none => .settings e := by
  rw [Program.run, hparse]
  cases hreason : e.reason? <;> simp [Program.prepare, hload, hreason]

/-- Reading the settings gives valid settings, or an error with a reason, or something happened
that nothing provides for. The program ends with status 1 for each reason, with its files as they
were; an error without one ends it as it is. -/
theorem valid_or_reason (s : Sources) :
    ((∃ settings, (load s).1 = .ok settings ∧ settings.Valid)
      ∨ ∃ e, (load s).1 = .error e ∧ ((∃ reason, e.reason? = some reason) ∨ s.Escape e))
    ∧ (∀ e, s.Escape e → (load s).1 = .error e ∧ e.reason? = none)
    ∧ (s.Escape .tooDeep → maxDescent < Json.heightOf s.given
      ∨ ∃ environment, Environment.settings Environment.standardLead s.environment = .ok environment
        ∧ maxDescent < Json.heightOf environment)
    ∧ ∀ (w : Program.World) (arguments : List Text) (given : CommandLine.Given),
      CommandLine.parse arguments = .ok given → Program.sources w.files w.environment given = s →
      ∀ e, (load s).1 = .error e → (Program.run w arguments).files = w.files
        ∧ ((∃ reason, e.reason? = some reason) → (Program.run w arguments).ending = .status 1)
        ∧ (s.Escape e → (Program.run w arguments).ending = .settings e) := by
  refine ⟨?_, fun e => Sources.load_of_escape, Sources.Escape.lt_height, ?_⟩
  · cases hload : (load s).1 with
    | ok settings =>
      cases hmembers : s.members with
      | error e =>
        rw [Sources.load_of_error hmembers] at hload
        cases hload
      | ok members =>
        rw [load_of_members hmembers] at hload
        split at hload
        next settings' hcheck =>
          cases hload
          exact .inl ⟨_, rfl, valid_of_check hcheck⟩
        next => cases hload
    | error e =>
      refine .inr ⟨e, rfl, ?_⟩
      cases hreason : e.reason? with
      | some reason => exact .inl ⟨reason, rfl⟩
      | none => exact .inr (Sources.escape_of_load hload hreason)
  · rintro w arguments given hparse rfl e hload
    obtain ⟨hfiles, -, hending⟩ := run_of_error w hparse hload
    refine ⟨hfiles, ?_, fun hescape => ?_⟩
    · rintro ⟨reason, hreason⟩
      rw [hending, hreason]
    · rw [hending, (Sources.load_of_escape hescape).2]

/-- A bracket in the file that nothing closes. -/
def unclosed : Program.World :=
  ⟨⟨[(["settings.yaml"], .file (Utf8.encode "feed: ["))], []⟩, [], [], []⟩

theorem status_of_unclosed : ∃ given e, CommandLine.parse [] = .ok given
    ∧ (load (Program.sources unclosed.files unclosed.environment given)).1 = .error e
    ∧ e.reason? = some "Error parsing YAML file at settings.yaml"
    ∧ (Program.run unclosed []).ending = .status 1 := by
  have hload : (load (Program.sources unclosed.files unclosed.environment [])).1
      = .error (.document (.ofText "settings.yaml") .malformed) := by decide +kernel
  obtain ⟨-, -, -, hrun⟩ := valid_or_reason (Program.sources unclosed.files unclosed.environment [])
  obtain ⟨-, hstatus, -⟩ := hrun unclosed [] [] rfl rfl _ hload
  exact ⟨[], _, rfl, hload, rfl, hstatus ⟨_, rfl⟩⟩

/-- A byte in the file that begins no character. -/
def garbled : Program.World := ⟨⟨[(["settings.yaml"], .file [0xFF])], []⟩, [], [], []⟩

/-- The error of such a file has no reason to tell, and the program does not end with a status. -/
theorem escape_of_garbled : ∃ given, CommandLine.parse [] = .ok given
    ∧ (load (Program.sources garbled.files garbled.environment given)).1 = .error .undecodable
    ∧ SettingsError.undecodable.reason? = none
    ∧ ∀ code, (Program.run garbled []).ending ≠ .status code := by
  have hload : (load (Program.sources garbled.files garbled.environment [])).1
      = .error .undecodable := by decide +kernel
  have hparse : CommandLine.parse [] = .ok [] := rfl
  obtain ⟨-, -, hending⟩ := run_of_error garbled hparse hload
  refine ⟨[], hparse, hload, rfl, fun code h => ?_⟩
  rw [hending] at h
  cases h

end Settings

end AuthorWatch
