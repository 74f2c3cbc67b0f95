import AuthorWatch.Proofs.Json.Equality
import AuthorWatch.Proofs.Settings.Place
import Mathlib.Data.List.Induction
import Mathlib.Data.List.Nodup

/-! Settings from the variables of the environment. What a path leads to is decided by the last
variable whose path overlaps it, so the order of the variables matters only among those whose
paths overlap. -/

namespace AuthorWatch.Environment

open Json (Found found? Alike)

variable {lead : Text} {path q : List Text} {v w : Text × Text}
  {members later : List (Text × Json)} {env env' : List (Text × Text)} {e : EnvironmentError}

/-! ### What one variable does -/

/-- The path of the variable leads to the other one, or is the same. -/
def leadsTo (lead : Text) (q : List Text) (v : Text × Text) : Bool :=
  (path? lead v.1).any (·.isPrefixOf q)

/-- One of two paths leads to the other: the path of the variable, and the other one. -/
def touches (lead : Text) (q : List Text) (v : Text × Text) : Bool :=
  (path? lead v.1).any fun path => path.isPrefixOf q || q.isPrefixOf path

/-- The path of one variable leads to that of the other. -/
def overlap (lead : Text) (v w : Text × Text) : Bool :=
  (path? lead v.1).any fun path => touches lead path w

/-- What a path leads to because of a variable: a part of its value, or an object on the way. -/
def effect (lead : Text) (q : List Text) (v : Text × Text) : Option Found :=
  (path? lead v.1).bind fun path =>
    if path <+: q then (value path v.2).toOption.bind (found? (q.drop path.length))
    else some .mapping

theorem leadsTo_iff (h : path? lead v.1 = some path) : leadsTo lead q v = true ↔ path <+: q := by
  rw [leadsTo, h, Option.any_some, List.isPrefixOf_iff_prefix]

theorem exists_path?_of_leadsTo (h : leadsTo lead q v = true) :
    ∃ path, path? lead v.1 = some path ∧ path <+: q := by
  cases hpath : path? lead v.1 with
  | none => simp [leadsTo, hpath] at h
  | some path => exact ⟨path, rfl, (leadsTo_iff hpath).mp h⟩

theorem touches_iff (h : path? lead v.1 = some path) :
    touches lead q v = true ↔ path <+: q ∨ q <+: path := by
  simp [touches, h]

theorem splitOnDouble_ne_nil (sep : Glyph) (t : Text) : t.splitOnDouble sep ≠ [] := by
  fun_induction Text.splitOnDouble sep t with
  | case1 => exact nofun
  | case2 => exact nofun
  | case3 => exact nofun
  | case4 g h rest hsep ih =>
    cases hpieces : Text.splitOnDouble sep (h :: rest) with
    | nil => exact absurd hpieces ih
    | cons piece pieces => exact nofun

/-- A path has a step. -/
theorem ne_nil_of_path? {name : Text} (h : path? lead name = some path) : path ≠ [] := by
  rw [path?] at h
  split at h
  · cases h
    exact splitOnDouble_ne_nil _ _
  · cases h

theorem add_of_path? (h : path? lead v.1 = some path) :
    add lead members v = (value path v.2).bind fun x => place x path members := by
  rw [add, h]
  rfl

theorem add_of_none (h : path? lead v.1 = none) : add lead members v = .ok members := by
  rw [add, h]

/-- A variable decides what is found wherever its path touches, and nothing else. -/
theorem found?_add (h : add lead members v = .ok later) (q : List Text) :
    found? q (.object later)
      = if touches lead q v then effect lead q v else found? q (.object members) := by
  cases hpath : path? lead v.1 with
  | none =>
    rw [add_of_none hpath] at h
    cases h
    simp [touches, hpath]
  | some path =>
    rw [add_of_path? hpath] at h
    cases hx : value path v.2 with
    | error e => rw [hx] at h; cases h
    | ok x =>
      rw [hx] at h
      rw [found?_place h (ne_nil_of_path? hpath) q]
      simp only [touches_iff hpath, effect, hpath, hx, Option.bind_some, Except.toOption]
      by_cases hq : path <+: q
      · simp [hq]
      · simp [hq]

/-- Below a value that is no object nothing can be added. -/
theorem found?_ne_value_of_add (hpath : path? lead v.1 = some path)
    (h : add lead members v = .ok later) (hq : q <+: path) (hne : q ≠ path) (x : Json) :
    found? q (.object members) ≠ some (.value x) := by
  rw [add_of_path? hpath] at h
  cases hx : value path v.2 with
  | error e => rw [hx] at h; cases h
  | ok y =>
    rw [hx] at h
    exact found?_ne_value_of_place h hq hne x

/-- What stands on the way to the place of a variable decides the error. -/
theorem add_error_of_found {others : List (Text × Json)} (h : add lead members v = .error e)
    (hothers : ∀ path, path? lead v.1 = some path → ∀ q, q <+: path → q ≠ path → ∀ x,
      found? q (.object members) = some (.value x) → found? q (.object others) = some (.value x)) :
    add lead others v = .error e := by
  cases hpath : path? lead v.1 with
  | none => rw [add_of_none hpath] at h; cases h
  | some path =>
    rw [add_of_path? hpath] at h ⊢
    cases hx : value path v.2 with
    | error e => rw [hx] at h; exact h
    | ok x =>
      rw [hx] at h
      exact place_error_of_found h (hothers path hpath)

/-- A variable cannot be added if its value cannot be read, or another one is in the way. -/
theorem add_eq_error_iff : add lead members v = .error e ↔ ∃ path, path? lead v.1 = some path
    ∧ (value path v.2 = .error e
      ∨ (∃ x, value path v.2 = .ok x) ∧ Blocked path (.object members) e) := by
  cases hpath : path? lead v.1 with
  | none => simp [add_of_none hpath]
  | some path =>
    rw [add_of_path? hpath]
    cases hx : value path v.2 with
    | error e' => simp [Except.bind, hx]
    | ok x => simp [Except.bind, hx, place_eq_error_iff]

/-! ### What many variables do -/

theorem settings_append (lead : Text) (before after : List (Text × Text)) :
    settings lead (before ++ after)
      = (settings lead before).bind fun members => after.foldlM (add lead) members := by
  rw [settings, List.foldlM_append]
  rfl

theorem settings_concat (lead : Text) (before : List (Text × Text)) (v : Text × Text) :
    settings lead (before ++ [v]) = (settings lead before).bind fun members =>
      add lead members v := by
  rw [settings_append]
  congr 1
  funext members
  exact bind_pure _

/-- The last variable whose path touches decides what is found. -/
theorem found?_settings (h : settings lead env = .ok members) (q : List Text) :
    found? q (.object members) = ((env.filter (touches lead q)).getLast?.map
      (effect lead q)).getD (found? q (.object [])) := by
  induction env using List.reverseRecOn generalizing members with
  | nil => cases h; rfl
  | append_singleton before v ih =>
    rw [settings_concat] at h
    cases hbefore : settings lead before with
    | error e => rw [hbefore] at h; cases h
    | ok earlier =>
      rw [hbefore] at h
      rw [found?_add h q, List.filter_append]
      by_cases hv : touches lead q v = true
      · simp [hv]
      · simp [hv, ih hbefore]

/-- The last variable whose path leads there decides whether a value that is no object is found. -/
theorem found?_value_iff (h : settings lead env = .ok members) (q : List Text) (x : Json) :
    found? q (.object members) = some (.value x)
      ↔ (env.filter (leadsTo lead q)).getLast?.bind (effect lead q) = some (.value x) := by
  induction env using List.reverseRecOn generalizing members with
  | nil =>
    cases h
    cases q <;> exact iff_of_false nofun nofun
  | append_singleton before v ih =>
    rw [settings_concat] at h
    cases hbefore : settings lead before with
    | error e => rw [hbefore] at h; cases h
    | ok earlier =>
      rw [hbefore] at h
      rw [found?_add h q, List.filter_append]
      cases hpath : path? lead v.1 with
      | none => simpa [touches, leadsTo, hpath] using ih hbefore
      | some path =>
        by_cases hv : path <+: q
        · simp [(touches_iff hpath).mpr (.inl hv), (leadsTo_iff hpath).mpr hv]
        · have hlead : leadsTo lead q v = false := by
            rw [Bool.eq_false_iff, Ne, leadsTo_iff hpath]
            exact hv
          simp only [List.filter_cons, hlead, Bool.false_eq_true, if_false, List.filter_nil,
            List.append_nil]
          by_cases hbelow : q <+: path
          · have hne : q ≠ path := fun e => hv (e ▸ List.prefix_refl _)
            have hfree := found?_ne_value_of_add hpath h hbelow hne x
            rw [if_pos ((touches_iff hpath).mpr (.inr hbelow)), ← ih hbefore]
            simp [effect, hpath, hv, hfree]
          · rw [if_neg (by rw [touches_iff hpath]; exact not_or.mpr ⟨hv, hbelow⟩)]
            exact ih hbefore

/-- Of the variables before, those whose path leads to a path are enough to know whether a value
is in its way. -/
theorem found?_value_filter_iff {some' : List (Text × Json)}
    (h : settings lead env = .ok members)
    (h' : settings lead (env.filter (leadsTo lead path)) = .ok some') (hq : q <+: path) (x : Json) :
    found? q (.object members) = some (.value x) ↔ found? q (.object some') = some (.value x) := by
  rw [found?_value_iff h, found?_value_iff h', List.filter_filter]
  have hsame : (fun v => leadsTo lead q v && leadsTo lead path v) = leadsTo lead q := by
    funext v
    cases hv : path? lead v.1 with
    | none => simp [leadsTo, hv]
    | some p =>
      rw [Bool.and_eq_left_iff_imp, leadsTo_iff hv, leadsTo_iff hv]
      exact fun hp => hp.trans hq
  rw [hsame]

/-- Whether a variable can be added depends only on those whose path leads to its own, or to one
further on. -/
theorem add_eq_error_filter_iff {p : List Text} (hp : path? lead v.1 = some p) (hpath : p <+: path)
    (h : settings lead env = .ok members)
    (h' : settings lead (env.filter (leadsTo lead path)) = .ok later) :
    add lead members v = .error e ↔ add lead later v = .error e := by
  have hsame : ∀ p', path? lead v.1 = some p' → ∀ q, q <+: p' → ∀ x,
      found? q (.object members) = some (.value x) ↔ found? q (.object later) = some (.value x) := by
    intro p' hp' q hq x
    rw [hp, Option.some.injEq] at hp'
    exact found?_value_filter_iff h h' ((hp' ▸ hq).trans hpath) x
  exact ⟨fun hadd => add_error_of_found hadd fun p' hp' q hq _ x => (hsame p' hp' q hq x).mp,
    fun hadd => add_error_of_found hadd fun p' hp' q hq _ x => (hsame p' hp' q hq x).mpr⟩

/-- Variables that can be added can be added without those that do not lead to a path. -/
theorem exists_settings_filter (h : settings lead env = .ok members) (path : List Text) :
    ∃ fewer, settings lead (env.filter (leadsTo lead path)) = .ok fewer := by
  induction env using List.reverseRecOn generalizing members with
  | nil => exact ⟨[], rfl⟩
  | append_singleton before v ih =>
    rw [settings_concat] at h
    cases hbefore : settings lead before with
    | error e => rw [hbefore] at h; cases h
    | ok earlier =>
      rw [hbefore] at h
      obtain ⟨fewer, hfewer⟩ := ih hbefore
      rw [List.filter_append]
      by_cases hv : leadsTo lead path v = true
      · simp only [List.filter_cons, hv, if_true, List.filter_nil]
        rw [settings_concat, hfewer]
        cases hadd : add lead fewer v with
        | ok later => exact ⟨later, hadd⟩
        | error e =>
          obtain ⟨p, hp, hpath⟩ := exists_path?_of_leadsTo hv
          have hsame := (add_eq_error_filter_iff hp hpath hbefore hfewer).mpr hadd
          rw [show add lead earlier v = .ok _ from h] at hsame
          cases hsame
      · simpa [hv] using ⟨fewer, hfewer⟩

/-! ### Which variables stop the reading -/

/-- The variables before it whose path leads to its own leave no place for a variable, whatever
the others are; or its value cannot be read. -/
def Stops (lead : Text) (env : List (Text × Text)) (v : Text × Text) (e : EnvironmentError) : Prop :=
  ∃ path before after members, path? lead v.1 = some path ∧ env = before ++ v :: after
    ∧ settings lead (before.filter (leadsTo lead path)) = .ok members
    ∧ add lead members v = .error e

/-- The first variable that cannot be added gives the error. -/
theorem settings_eq_error_iff : settings lead env = .error e ↔ ∃ before v after members,
    env = before ++ v :: after ∧ settings lead before = .ok members
      ∧ add lead members v = .error e := by
  constructor
  · intro h
    induction env using List.reverseRecOn with
    | nil => cases h
    | append_singleton before v ih =>
      rw [settings_concat] at h
      cases hbefore : settings lead before with
      | ok members =>
        rw [hbefore] at h
        exact ⟨before, v, [], members, rfl, hbefore, h⟩
      | error e' =>
        rw [hbefore] at h
        cases h
        obtain ⟨b, w, a, members, rfl, hb, hw⟩ := ih hbefore
        exact ⟨b, w, a ++ [v], members, by simp, hb, hw⟩
  · rintro ⟨before, v, after, members, rfl, hbefore, hadd⟩
    rw [List.append_cons, settings_append, settings_concat, hbefore]
    show Except.bind (add lead members v) _ = _
    rw [hadd]
    rfl

/-- If the variables give no settings, one of them stops the reading with this error. -/
theorem exists_stops (h : settings lead env = .error e) : ∃ v ∈ env, Stops lead env v e := by
  obtain ⟨before, v, after, members, rfl, hbefore, hadd⟩ := settings_eq_error_iff.mp h
  refine ⟨v, by simp, ?_⟩
  cases hpath : path? lead v.1 with
  | none => rw [add_of_none hpath] at hadd; cases hadd
  | some path =>
    obtain ⟨fewer, hfewer⟩ := exists_settings_filter hbefore path
    exact ⟨path, before, after, fewer, hpath, rfl, hfewer,
      (add_eq_error_filter_iff hpath (List.prefix_refl _) hbefore hfewer).mp hadd⟩

/-- A variable that stops the reading leaves no settings. -/
theorem exists_error_of_stops (h : Stops lead env v e) : ∃ e', settings lead env = .error e' := by
  obtain ⟨path, before, after, fewer, hpath, rfl, hfewer, hadd⟩ := h
  cases hbefore : settings lead before with
  | error e' =>
    rw [List.append_cons, settings_append, settings_concat, hbefore]
    exact ⟨e', rfl⟩
  | ok members =>
    have hsame := (add_eq_error_filter_iff hpath (List.prefix_refl _) hbefore hfewer).mpr hadd
    exact ⟨e, settings_eq_error_iff.mpr ⟨before, v, after, members, rfl, hbefore, hsame⟩⟩

/-! ### Two orders of the variables -/

/-- Two lists of the same variables, in which those whose paths overlap stand in the same order. -/
structure Reordered (lead : Text) (env env' : List (Text × Text)) : Prop where
  perm : env.Perm env'
  order : ∀ v ∈ env, ∀ w ∈ env, overlap lead v w = true →
    (env.idxOf v < env.idxOf w ↔ env'.idxOf v < env'.idxOf w)

theorem pairwise_idxOf {α : Type} [BEq α] [LawfulBEq α] {l : List α} (h : l.Nodup) :
    l.Pairwise fun x y => l.idxOf x < l.idxOf y := by
  rw [List.pairwise_iff_getElem]
  intro i j hi hj hij
  rw [h.idxOf_getElem, h.idxOf_getElem]
  exact hij

/-- Variables of which any two overlap are listed alike. -/
theorem Reordered.filter_eq (h : Reordered lead env env') (hdistinct : env.Nodup)
    {p : Text × Text → Bool} (hp : ∀ v w, p v = true → p w = true → overlap lead v w = true) :
    env.filter p = env'.filter p := by
  have hdistinct' : env'.Nodup := h.perm.nodup_iff.mp hdistinct
  have hsorted : (env.filter p).Pairwise fun v w => env.idxOf v < env.idxOf w :=
    (pairwise_idxOf hdistinct).sublist List.filter_sublist
  have hsorted' : (env'.filter p).Pairwise fun v w => env.idxOf v < env.idxOf w := by
    refine ((pairwise_idxOf hdistinct').sublist List.filter_sublist).imp_of_mem ?_
    intro v w hv hw hvw
    rw [List.mem_filter, ← h.perm.mem_iff] at hv hw
    exact (h.order v hv.1 w hw.1 (hp v w hv.2 hw.2)).mpr hvw
  refine List.Perm.eq_of_pairwise ?_ hsorted hsorted' (h.perm.filter p)
  intro v w _ _ hvw hwv
  omega

theorem overlap_iff {path' : List Text} (hv : path? lead v.1 = some path)
    (hw : path? lead w.1 = some path') :
    overlap lead v w = true ↔ path' <+: path ∨ path <+: path' := by
  rw [overlap, hv, Option.any_some, touches_iff hw]

theorem overlap_comm (lead : Text) (v w : Text × Text) : overlap lead v w = overlap lead w v := by
  cases hv : path? lead v.1 <;> cases hw : path? lead w.1 <;>
    simp [overlap, touches, hv, hw, Bool.or_comm]

theorem exists_path?_of_touches (h : touches lead q v = true) :
    ∃ path, path? lead v.1 = some path ∧ (path <+: q ∨ q <+: path) := by
  cases hpath : path? lead v.1 with
  | none => simp [touches, hpath] at h
  | some path => exact ⟨path, rfl, (touches_iff hpath).mp h⟩

/-- Variables whose paths lead to one path overlap. -/
theorem overlap_of_leadsTo (hv : leadsTo lead q v = true) (hw : leadsTo lead q w = true) :
    overlap lead v w = true := by
  obtain ⟨path, hpath, hq⟩ := exists_path?_of_leadsTo hv
  obtain ⟨path', hpath', hq'⟩ := exists_path?_of_leadsTo hw
  exact (overlap_iff hpath hpath').mpr (List.prefix_or_prefix_of_prefix hq' hq)

/-- Two variables that touch a path without overlapping make it lead to an object. -/
theorem effect_eq_of_not_overlap (hv : touches lead q v = true) (hw : touches lead q w = true)
    (h : overlap lead v w = false) : effect lead q v = some .mapping := by
  obtain ⟨path, hpath, hq⟩ := exists_path?_of_touches hv
  obtain ⟨path', hpath', hq'⟩ := exists_path?_of_touches hw
  rw [Bool.eq_false_iff, Ne, overlap_iff hpath hpath', not_or] at h
  have hfar : ¬ path <+: q := fun hpq => by
    rcases hq' with hq' | hq'
    · exact (List.prefix_or_prefix_of_prefix hpq hq').elim h.2 h.1
    · exact h.2 (hpq.trans hq')
  simp [effect, hpath, hfar]

theorem idxOf_le_of_getLast? {l : List (Text × Text)} {p : Text × Text → Bool} (hdistinct : l.Nodup)
    (hlast : (l.filter p).getLast? = some w) (hv : v ∈ l) (hpv : p v = true) :
    v = w ∨ l.idxOf v < l.idxOf w := by
  obtain ⟨front, hfront⟩ := List.getLast?_eq_some_iff.mp hlast
  have hmem : v ∈ l.filter p := List.mem_filter.mpr ⟨hv, hpv⟩
  have hsorted : (l.filter p).Pairwise fun v w => l.idxOf v < l.idxOf w :=
    (pairwise_idxOf hdistinct).sublist List.filter_sublist
  rw [hfront] at hmem hsorted
  rcases List.mem_append.mp hmem with hmem | hmem
  · exact .inr ((List.pairwise_append.mp hsorted).2.2 v hmem w (List.mem_singleton_self w))
  · exact .inl (List.mem_singleton.mp hmem)

/-- The last variables that touch a path, in the two orders, have the same effect on it. -/
theorem Reordered.effect_eq (h : Reordered lead env env') (hdistinct : env.Nodup)
    (hv : (env.filter (touches lead q)).getLast? = some v)
    (hw : (env'.filter (touches lead q)).getLast? = some w) :
    effect lead q v = effect lead q w := by
  have hdistinct' : env'.Nodup := h.perm.nodup_iff.mp hdistinct
  obtain ⟨hmemv, htv⟩ := List.mem_filter.mp (List.mem_of_getLast? hv)
  obtain ⟨hmemw, htw⟩ := List.mem_filter.mp (List.mem_of_getLast? hw)
  have hmemw' : w ∈ env := h.perm.mem_iff.mpr hmemw
  by_cases hover : overlap lead v w = true
  · rcases idxOf_le_of_getLast? hdistinct' hw (h.perm.mem_iff.mp hmemv) htv with rfl | hvw
    · rfl
    rcases idxOf_le_of_getLast? hdistinct hv hmemw' htw with rfl | hwv
    · rfl
    have := (h.order v hmemv w hmemw' hover).mpr hvw
    omega
  · rw [Bool.not_eq_true] at hover
    rw [effect_eq_of_not_overlap htv htw hover,
      effect_eq_of_not_overlap htw htv (overlap_comm lead v w ▸ hover)]

/-- In both orders every path leads to the same. -/
theorem Reordered.alike (h : Reordered lead env env') (hdistinct : env.Nodup)
    {members' : List (Text × Json)} (hok : settings lead env = .ok members)
    (hok' : settings lead env' = .ok members') : Alike (.object members) (.object members') := by
  intro q
  rw [found?_settings hok, found?_settings hok']
  have hperm := h.perm.filter (touches lead q)
  cases hv : (env.filter (touches lead q)).getLast? with
  | none =>
    rw [List.getLast?_eq_none_iff] at hv
    rw [hv, List.nil_perm] at hperm
    rw [hperm]
    rfl
  | some v =>
    cases hw : (env'.filter (touches lead q)).getLast? with
    | none =>
      rw [List.getLast?_eq_none_iff] at hw
      rw [hw, List.perm_nil] at hperm
      rw [hperm] at hv
      cases hv
    | some w => exact h.effect_eq hdistinct hv hw

/-- What stops the reading in one order stops it in the other. -/
theorem Reordered.stops (h : Reordered lead env env') (hdistinct : env.Nodup)
    (hstops : Stops lead env v e) : Stops lead env' v e := by
  obtain ⟨path, before, after, fewer, hpath, rfl, hfewer, hadd⟩ := hstops
  have hmem : v ∈ env' := h.perm.mem_iff.mp (by simp)
  obtain ⟨before', after', rfl⟩ := List.append_of_mem hmem
  have hdistinct' := h.perm.nodup_iff.mp hdistinct
  have hlead : leadsTo lead path v = true := (leadsTo_iff hpath).mpr (List.prefix_refl _)
  have hsame := h.filter_eq hdistinct (p := leadsTo lead path) fun _ _ => overlap_of_leadsTo
  simp only [List.filter_append, List.filter_cons, hlead, if_true] at hsame
  have hbefore : v ∉ before.filter (leadsTo lead path) := fun hv =>
    (List.nodup_append.mp hdistinct).2.2 v (List.mem_filter.mp hv).1 v (by simp) rfl
  have hafter : v ∉ after.filter (leadsTo lead path) := fun hv =>
    (List.nodup_cons.mp (List.nodup_append.mp hdistinct).2.1).1 (List.mem_filter.mp hv).1
  obtain ⟨hfront, -, -⟩ := (List.append_cons_inj_of_notMem hbefore hafter).mp hsame
  exact ⟨path, before', after', fewer, hpath, rfl, hfront ▸ hfewer, hadd⟩

/-- As long as variables whose paths overlap keep their order, the settings are the same in any
order of the variables, path by path; or there are none in any order, and whatever stops the
reading in one order would stop it in the other with the same error. -/
theorem settings_of_reordered (hnames : (env.map Prod.fst).Nodup)
    (h : Reordered lead env env') :
    (∃ members members', settings lead env = .ok members ∧ settings lead env' = .ok members'
      ∧ Alike (.object members) (.object members'))
    ∨ ∃ e e', settings lead env = .error e ∧ settings lead env' = .error e'
      ∧ (∃ v ∈ env, Stops lead env v e ∧ Stops lead env' v e)
      ∧ ∃ v ∈ env, Stops lead env v e' ∧ Stops lead env' v e' := by
  have hdistinct : env.Nodup := .of_map _ hnames
  have hdistinct' : env'.Nodup := h.perm.nodup_iff.mp hdistinct
  have hback : Reordered lead env' env := ⟨h.perm.symm, fun v hv w hw hover =>
    (h.order v (h.perm.mem_iff.mpr hv) w (h.perm.mem_iff.mpr hw) hover).symm⟩
  cases hok : settings lead env with
  | ok members =>
    cases hok' : settings lead env' with
    | ok members' => exact .inl ⟨members, members', rfl, rfl, h.alike hdistinct hok hok'⟩
    | error e' =>
      obtain ⟨v, -, hv⟩ := exists_stops hok'
      obtain ⟨e, he⟩ := exists_error_of_stops (hback.stops hdistinct' hv)
      rw [hok] at he
      cases he
  | error e =>
    obtain ⟨v, hmem, hv⟩ := exists_stops hok
    cases hok' : settings lead env' with
    | ok members' =>
      obtain ⟨e', he'⟩ := exists_error_of_stops (h.stops hdistinct hv)
      rw [hok'] at he'
      cases he'
    | error e' =>
      obtain ⟨w, hmem', hw⟩ := exists_stops hok'
      exact .inr ⟨e, e', rfl, rfl, ⟨v, hmem, hv, h.stops hdistinct hv⟩,
        w, h.perm.mem_iff.mpr hmem', hback.stops hdistinct' hw, hw⟩

deriving instance DecidableEq for EnvironmentError

/-- A step below `a`, the whole of `a`, and a value without steps there. -/
def belowA : Text × Text := ("TELEMETRY_OBSERVER_A__B", "1")
def wholeA : Text × Text := ("TELEMETRY_OBSERVER_A", "\x7b\"b\": 2\x7d")
def plainA : Text × Text := ("TELEMETRY_OBSERVER_A", "5")

/-- The same for `c`, where two steps are missing. -/
def belowC : Text × Text := ("TELEMETRY_OBSERVER_C__D__E", "1")
def plainC : Text × Text := ("TELEMETRY_OBSERVER_C", "5")

/-- The whole of `a` before the step below it, and another variable moved to the front. -/
theorem settings_of_movedC :
    ([wholeA, belowA, belowC].map Prod.fst).Nodup
      ∧ Reordered standardLead [wholeA, belowA, belowC] [belowC, wholeA, belowA]
      ∧ ∃ members members', settings standardLead [wholeA, belowA, belowC] = .ok members
        ∧ settings standardLead [belowC, wholeA, belowA] = .ok members'
        ∧ Assoc.get? ("a" : Text) members = some (.object [("b", .int 1)])
        ∧ Alike (.object members) (.object members') := by
  have hnames : ([wholeA, belowA, belowC].map Prod.fst).Nodup := by decide
  have horder : Reordered standardLead [wholeA, belowA, belowC] [belowC, wholeA, belowA] :=
    ⟨by decide +kernel, by decide +kernel⟩
  have hok : settings standardLead [wholeA, belowA, belowC]
      = .ok [("a", .object [("b", .int 1)]),
        ("c", .object [("d", .object [("e", .int 1)])])] := by decide +kernel
  rcases settings_of_reordered hnames horder with ⟨members, members', h, h', hsame⟩ | ⟨e, _, h, _⟩
  · rw [hok, Except.ok.injEq] at h
    exact ⟨hnames, horder, members, members', h ▸ hok, h', by rw [← h]; rfl, hsame⟩
  · rw [hok] at h
    cases h

/-- Where paths overlap, two orders may give two values, or settings and an error; and with two
variables that stop the reading, the first one to come gives its error. -/
theorem order_matters :
    (∃ members members', settings standardLead [belowA, wholeA] = .ok members
      ∧ settings standardLead [wholeA, belowA] = .ok members'
      ∧ ¬ Alike (.object members) (.object members'))
    ∧ settings standardLead [belowA, plainA] = .ok [("a", .int 5)]
    ∧ settings standardLead [plainA, belowA] = .error (.noMembers (.int 5))
    ∧ Reordered standardLead [plainA, belowA, plainC, belowC] [plainC, belowC, plainA, belowA]
    ∧ settings standardLead [plainA, belowA, plainC, belowC] = .error (.noMembers (.int 5))
    ∧ settings standardLead [plainC, belowC, plainA, belowA] = .error (.noSteps (.int 5)) := by
  have hwhole : settings standardLead [belowA, wholeA] = .ok [("a", .object [("b", .int 2)])] := by
    decide +kernel
  have hbelow : settings standardLead [wholeA, belowA] = .ok [("a", .object [("b", .int 1)])] := by
    decide +kernel
  have hdiffer : ¬ Alike (.object [("a", .object [("b", .int 2)])])
      (.object [("a", .object [("b", .int 1)])]) := fun h => by cases h ["a", "b"]
  have horder : Reordered standardLead [plainA, belowA, plainC, belowC]
      [plainC, belowC, plainA, belowA] := ⟨by decide +kernel, by decide +kernel⟩
  exact ⟨⟨_, _, hwhole, hbelow, hdiffer⟩, by decide +kernel, by decide +kernel, horder,
    by decide +kernel, by decide +kernel⟩

end AuthorWatch.Environment
