import AuthorWatch.Proofs.Settings.Failure

/-! The members of all sources, whatever these are: also where a mapping of the document stands at
several places, each key is there once, and a field that is laid over all else is found as it was
given. -/

namespace AuthorWatch

open Json (Found found? Distinct)
open Yaml (Value)
open Yaml.Value (toJson toMembers)

namespace Graph

variable {g g' : Graph} {root label other depth : Nat} {section' key : Text} {r : Ref} {x : Json}

/-! ### Distinct keys -/

/-- A mapping, or a value with distinct keys. -/
def DistinctRef : Ref → Prop
  | .plain v => Distinct v
  | .cell _ => True

/-- Every mapping has distinct keys, and so have the values in it. -/
structure Tidy (g : Graph) : Prop where
  keys : ∀ label, (Assoc.keys (g.members label)).Nodup
  values : ∀ label, ∀ m ∈ g.members label, DistinctRef m.2

theorem members_insert (g : Graph) (label other : Nat) (members : List (Text × Ref)) :
    (⟨Assoc.insert label members g.cells⟩ : Graph).members other
      = if label = other then members else g.members other := by
  rw [Graph.members, Assoc.get?_insert]
  split
  · rfl
  · rfl

theorem tidy_insert (h : g.Tidy) {members : List (Text × Ref)} (hkeys : (Assoc.keys members).Nodup)
    (hvalues : ∀ m ∈ members, DistinctRef m.2) :
    (⟨Assoc.insert label members g.cells⟩ : Graph).Tidy := by
  constructor
  · intro other
    rw [members_insert]
    split
    · exact hkeys
    · exact h.keys other
  · intro other
    rw [members_insert]
    split
    · exact hvalues
    · exact h.values other

theorem tidy_write (h : g.Tidy) (hr : DistinctRef r) : (g.write label key r).Tidy := by
  refine tidy_insert h (Assoc.nodup_keys_insert (h.keys label)) fun m hm => ?_
  rcases Assoc.mem_of_mem_insert hm with hm | rfl
  · exact h.values label m hm
  · exact hr

theorem distinctRef_ofValue : ∀ {v : Value}, Distinct (toJson v) → DistinctRef (.ofValue v)
  | .plain _, h => h
  | .mapping _ _, _ => trivial

mutual

theorem tidy_add : ∀ (v : Value) (g : Graph), g.Tidy → Distinct (toJson v) → (add g v).Tidy
  | .plain _, _, h, _ => h
  | .mapping label members, g, h, ⟨hkeys, hvalues⟩ => by
    unfold add
    split
    · exact h
    · refine tidy_addAll members _ (tidy_insert h ?_ ?_) hvalues
      · rw [Yaml.Value.toMembers_eq, Assoc.keys, List.map_map] at hkeys
        rw [Assoc.keys, List.map_map]
        exact hkeys
      · rw [Yaml.Value.toMembers_eq, Json.distinctMembers_iff, List.forall_mem_map] at hvalues
        rw [List.forall_mem_map]
        exact fun m hm => distinctRef_ofValue (hvalues m hm)

theorem tidy_addAll : ∀ (members : List (Text × Value)) (g : Graph), g.Tidy →
    Json.DistinctMembers (toMembers members) → (addAll g members).Tidy
  | [], _, h, _ => h
  | (_, v) :: rest, g, h, ⟨hv, hrest⟩ => tidy_addAll rest _ (tidy_add v g h hv) hrest

end

mutual

theorem tidy_overlay : ∀ (upper : List (Text × Json)) {depth : Nat} {g g' : Graph} {label : Nat},
    g.Tidy → Json.DistinctMembers upper → overlay depth g label upper = some g' → g'.Tidy
  | [], _, _, _, _, h, _, hover => by
    cases hover
    exact h
  | (_, v) :: rest, _, _, _, _, h, ⟨hv, hrest⟩, hover => by
    obtain ⟨between, hat, hlast⟩ := Option.bind_eq_some_iff.mp hover
    exact tidy_overlay rest (tidy_overlayAt v h hv hat) hrest hlast

theorem tidy_overlayAt : ∀ (v : Json) {depth : Nat} {g g' : Graph} {label : Nat} {key : Text},
    g.Tidy → Distinct v → overlayAt depth g label key v = some g' → g'.Tidy
  | .object upper, depth, g, g', label, key, h, hv, hover => by
    unfold overlayAt at hover
    split at hover
    · cases hover
    · obtain ⟨between, hbetween, rfl⟩ := Option.map_eq_some_iff.mp hover
      exact tidy_write (tidy_overlay upper h hv.2 hbetween) trivial
    next base hget =>
      split at hover
      · cases hover
        have hbase : Distinct (.object base) := h.values label _ (Assoc.mem_of_get? hget)
        exact tidy_write h (Json.distinct_object_overlay hbase hv)
      · cases hover
    · cases hover
      exact tidy_write h hv
  | .null, _, _, _, _, _, h, _, hover | .bool _, _, _, _, _, _, h, _, hover
  | .int _, _, _, _, _, _, h, _, hover | .float _, _, _, _, _, _, h, _, hover
  | .text _, _, _, _, _, _, h, _, hover | .array _, _, _, _, _, _, h, _, hover => by
    cases hover
    exact tidy_write h trivial

end

theorem distinct_unfold_of_tidy (h : g.Tidy) (hr : DistinctRef r) :
    Distinct (g.unfold depth r) := by
  induction depth generalizing r with
  | zero =>
    cases r with
    | plain v => exact hr
    | cell label => exact ⟨List.nodup_nil, trivial⟩
  | succ depth ih =>
    cases r with
    | plain v => exact hr
    | cell label =>
      rw [unfold, Distinct, Json.distinctMembers_iff, List.forall_mem_map, Assoc.keys, List.map_map]
      exact ⟨h.keys label, fun m hm => ih (h.values label m hm)⟩

/-! ### A field that is laid over -/

theorem members_write (g : Graph) (label other : Nat) (key : Text) (r : Ref) :
    (g.write label key r).members other
      = if label = other then Assoc.insert key r (g.members label) else g.members other :=
  members_insert g label other _

theorem get?_write (g : Graph) (label : Nat) (key : Text) (r : Ref) :
    Assoc.get? key ((g.write label key r).members label) = some r := by
  rw [members_write, if_pos rfl, Assoc.get?_insert, if_pos rfl]

/-- Writing to another key leaves what stands under a key, whatever mappings these are. -/
theorem get?_write_of_ne (g : Graph) (label other : Nat) {key field : Text} (r : Ref)
    (hne : key ≠ field) : Assoc.get? field ((g.write label key r).members other)
      = Assoc.get? field (g.members other) := by
  rw [members_write]
  split
  next heq => rw [Assoc.get?_insert, if_neg hne, heq]
  next => rfl

/-- What is laid over a key stands there: an object if it is one, and otherwise itself. -/
theorem found?_overlayAt (h : overlayAt depth g label key x = some g') :
    ∃ r, Assoc.get? key (g'.members label) = some r
      ∧ ∀ shown below, found? [] (unfold shown below r) = found? [] x := by
  unfold overlayAt at h
  split at h
  · split at h
    · cases h
    · obtain ⟨between, -, rfl⟩ := Option.map_eq_some_iff.mp h
      exact ⟨_, get?_write .., fun _ below => by cases below <;> rfl⟩
    · split at h
      · cases h
        exact ⟨_, get?_write .., fun _ below => by cases below <;> rfl⟩
      · cases h
    · cases h
      exact ⟨_, get?_write .., fun _ below => by cases below <;> rfl⟩
  · cases h
    exact ⟨_, get?_write .., fun _ below => by cases below <;> rfl⟩

theorem found?_nil_overlayValue (below : Option Json) (x : Json) :
    found? [] (Json.overlayValue below x) = found? [] x := by
  cases x with
  | object members =>
    unfold Json.overlayValue
    split <;> rfl
  | _ => rfl

/-- A field of a section that is laid over a mapping is found as it is. -/
theorem found?_overlay_field (hne : section' ≠ key)
    (h : overlay depth g root [(section', .object [(key, x)])] = some g') :
    found? [section', key] (g'.unfold 2 (.cell root)) = found? [] x := by
  obtain ⟨_, hat, ⟨⟩⟩ := Option.bind_eq_some_iff.mp h
  have hsection : ∀ {g : Graph} {r}, g' = g.write root section' r →
      found? [section', key] (g'.unfold 2 (.cell root)) = found? [key] (g'.unfold 1 r) := by
    rintro g r rfl
    rw [unfold, Json.found?_cons_object, Assoc.get?_map (fun _ r => Graph.unfold _ 1 r), get?_write]
    rfl
  unfold overlayAt at hat
  split at hat
  · cases hat
  next inner _ depth _ =>
    obtain ⟨between, hbetween, hwrite⟩ := Option.map_eq_some_iff.mp hat
    obtain ⟨_, hfield, ⟨⟩⟩ := Option.bind_eq_some_iff.mp hbetween
    obtain ⟨r, hr, hfound⟩ := found?_overlayAt hfield
    -- the section may be the root itself, so its key has to be another one than the field
    rw [hsection hwrite.symm, unfold, Json.found?_cons_object,
      Assoc.get?_map (fun _ r => g'.unfold 0 r), ← hwrite, get?_write_of_ne _ _ _ _ hne, hr]
    exact hfound _ 0
  next base _ =>
    split at hat
    · cases hat
      rw [hsection rfl, unfold, Json.found?_cons_object, Json.overlay, Json.overlay,
        Assoc.get?_insert, if_pos rfl]
      exact found?_nil_overlayValue _ x
    · cases hat
  next =>
    cases hat
    rw [hsection rfl, unfold, Json.found?_cons_object, Assoc.get?, if_pos rfl]
    rfl

end Graph

namespace Settings

variable {s : Sources} {members : List (Text × Json)} {settings : Settings} {section' key : Text}
  {x : Json}

/-- What is read from distinct keys has each of them once. -/
theorem Sources.distinct_members (hgiven : Distinct (.object s.given))
    (h : s.members = .ok members) : Distinct (.object members) := by
  cases hdocument : s.document with
  | error e =>
    rw [members_of_document hdocument] at h
    cases h
  | ok found =>
    cases henvironment : Environment.settings Environment.standardLead s.environment with
    | error e =>
      rw [members_of_environment hdocument henvironment] at h
      cases h
    | ok environment =>
      rw [members_of_read hdocument henvironment] at h
      split at h
      · cases h
      next g hover =>
        cases h
        obtain ⟨between, hbetween, hlast⟩ := Option.bind_eq_some_iff.mp hover
        have hempty : (⟨[]⟩ : Graph).Tidy := ⟨fun _ => List.nodup_nil, fun _ => nofun⟩
        have hstart := Graph.tidy_add (.mapping found.1 found.2) ⟨[]⟩ hempty
          (distinct_document hdocument)
        have hfirst := Graph.tidy_overlay environment hstart
          (Environment.distinct_settings henvironment).2 hbetween
        have hshown : Distinct (g.unfold 2 (.cell found.1)) :=
          Graph.distinct_unfold_of_tidy (Graph.tidy_overlay s.given hfirst hgiven.2 hlast) trivial
        exact hshown

/-- The sections of settings that pass their check are objects, as far as they are there. -/
theorem sectioned_of_check (hdistinct : Distinct (.object members))
    (h : check members = .passed settings) : Sectioned members := by
  have hsection : ∀ {α : Type} {key name : Text} {read : List (Text × Json) → Check α} {a : α},
      sectionOf key name read members = .passed a →
      ∀ x, found? [key] (.object members) ≠ some (.value x) := by
    intro α key name read a hread x hx
    obtain ⟨v, hget, hv⟩ := Option.bind_eq_some_iff.mp hx
    rw [sectionOf, member?_eq_get? hdistinct.1, hget] at hread
    have hread : Check.inSection name read v = .passed a := Check.under_eq_passed_iff.mp hread
    cases v with
    | object inner => cases hv
    | _ => cases hread
  obtain ⟨⟩ := settings
  simp only [check, Check.seq_eq_passed_iff, Check.map_eq_passed_iff, exists_and_left,
    exists_exists_and_eq_and, exists_exists_and_exists_and_eq_and, ↓existsAndEq, and_true, mk.injEq,
    and_assoc] at h
  obtain ⟨hfeed, haggregation, hstorage, hlogging⟩ := h
  simp only [Sectioned, sectionNames, List.forall_mem_cons]
  exact ⟨hsection hfeed, hsection haggregation, hsection hstorage, hsection hlogging,
    List.forall_mem_nil _⟩

/-- Settings are read field by field from the members of all sources. -/
theorem exists_from_of_load (hgiven : Distinct (.object s.given)) (h : (load s).1 = .ok settings) :
    ∃ members, s.members = .ok members
      ∧ settings.From fun section' key => found? [section', key] (.object members) := by
  cases hmembers : s.members with
  | error e =>
    rw [Sources.load_of_error hmembers] at h
    cases h
  | ok members =>
    have hdistinct := Sources.distinct_members hgiven hmembers
    have hcheck := ((load_eq_ok_iff hmembers).mp h).2
    exact ⟨members, rfl,
      (check_eq_passed_iff hdistinct (sectioned_of_check hdistinct hcheck)).mp hcheck⟩

/-! ### One field over a settings file -/

/-- A settings file, and one field of one section over it. -/
def Sources.withField (files : FileTree) (path : Option Text) (section' key : Text) (x : Json) :
    Sources :=
  ⟨files, path, [], [(section', .object [(key, x)])]⟩

variable {files : FileTree} {path : Option Text}

theorem members_withField {found : Nat × List (Text × Value)}
    (hdocument : (Sources.withField files path section' key x).document = .ok found) :
    (Sources.withField files path section' key x).members
      = match (Graph.add ⟨[]⟩ (.mapping found.1 found.2)).overlay maxDescent found.1
          [(section', .object [(key, x)])] with
        | none => .error .tooDeep
        | some g => .ok ((g.members found.1).map fun m => (m.1, g.unfold 1 m.2)) :=
  Sources.members_of_read hdocument rfl

/-- The field is read from what was laid over the file, wherever the mappings of the file stand. -/
theorem exists_from_of_withField (hne : section' ≠ key) (hx : Distinct x)
    (h : (load (.withField files path section' key x)).1 = .ok settings) :
    ∃ found, settings.From found ∧ found section' key = found? [] x := by
  have hgiven : Distinct (.object [(section', .object [(key, x)])]) :=
    ⟨List.nodup_singleton section', ⟨List.nodup_singleton key, hx, trivial⟩, trivial⟩
  obtain ⟨members, hmembers, hfrom⟩ := exists_from_of_load hgiven h
  refine ⟨_, hfrom, ?_⟩
  cases hdocument : (Sources.withField files path section' key x).document with
  | error e =>
    rw [Sources.members_of_document hdocument] at hmembers
    cases hmembers
  | ok found =>
    rw [members_withField hdocument] at hmembers
    split at hmembers
    · cases hmembers
    next g hover =>
      cases hmembers
      exact Graph.found?_overlay_field hne hover

end Settings

end AuthorWatch
