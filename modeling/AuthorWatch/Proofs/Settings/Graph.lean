import AuthorWatch.Proofs.Settings.Merge
import AuthorWatch.Settings.Graph
import Mathlib.Data.List.Nodup

/-! Mappings that each stand at one place. Laying members over one of them changes what is below
it and nothing else, as if mappings were plain objects. -/

namespace AuthorWatch

namespace Yaml.Value

mutual

/-- The labels of the mappings of a value, one for each place where a mapping stands. -/
def labels : Value → List Nat
  | .plain _ => []
  | .mapping label members => label :: labelsOf members

def labelsOf : List (Text × Value) → List Nat
  | [] => []
  | (_, v) :: rest => labels v ++ labelsOf rest

end

mutual

/-- A value without its labels. -/
def toJson : Value → Json
  | .plain v => v
  | .mapping _ members => .object (toMembers members)

def toMembers : List (Text × Value) → List (Text × Json)
  | [] => []
  | (key, v) :: rest => (key, toJson v) :: toMembers rest

end

mutual

/-- Members laid over the members of a mapping that shares nothing. -/
def overlay (base : List (Text × Value)) : List (Text × Json) → List (Text × Value)
  | [] => base
  | (key, v) :: rest => overlay (Assoc.insert key (overlayValue (Assoc.get? key base) v) base) rest

def overlayValue (below : Option Value) : Json → Value
  | .object members =>
    match below with
    | some (.mapping label base) => .mapping label (overlay base members)
    | some (.plain (.object base)) => .plain (.object (Json.overlay base members))
    | _ => .plain (.object members)
  | v => .plain v

end

variable {label : Nat} {key : Text} {v w : Value} {members base : List (Text × Value)}

theorem toMembers_eq (members : List (Text × Value)) :
    toMembers members = members.map fun m => (m.1, toJson m.2) := by
  induction members with
  | nil => rfl
  | cons m rest ih => rw [toMembers, ih, List.map_cons]

theorem labelsOf_append (before after : List (Text × Value)) :
    labelsOf (before ++ after) = labelsOf before ++ labelsOf after := by
  induction before with
  | nil => rfl
  | cons m rest ih => simp [labelsOf, ih]

theorem labels_sublist_of_mem (h : (key, v) ∈ members) :
    (labels v).Sublist (labelsOf members) := by
  obtain ⟨before, after, rfl⟩ := List.append_of_mem h
  rw [labelsOf_append, labelsOf]
  exact (List.sublist_append_left _ _).trans (List.sublist_append_right _ _)

end Yaml.Value

open Yaml (Value)
open Yaml.Value (labels labelsOf toJson toMembers)

theorem Yaml.Value.get?_toMembers (key : Text) (members : List (Text × Value)) :
    Assoc.get? key (toMembers members) = (Assoc.get? key members).map toJson := by
  rw [toMembers_eq]
  exact Assoc.get?_map (fun _ => toJson) key members

mutual

/-- Without labels it is the laying over of objects. -/
theorem Yaml.Value.toMembers_overlay : ∀ (upper : List (Text × Json)) (base : List (Text × Value)),
    toMembers (overlay base upper) = Json.overlay (toMembers base) upper
  | [], _ => rfl
  | (key, v) :: rest, base => by
    have hinsert : toMembers (Assoc.insert key (overlayValue (Assoc.get? key base) v) base)
        = Assoc.insert key (Json.overlayValue (Assoc.get? key (toMembers base)) v)
          (toMembers base) := by
      rw [toMembers_eq, ← Assoc.insert_map, ← toMembers_eq, toJson_overlayValue v, get?_toMembers]
    rw [overlay, Json.overlay, toMembers_overlay rest, hinsert]

theorem Yaml.Value.toJson_overlayValue : ∀ (v : Json) (below : Option Value),
    toJson (overlayValue below v) = Json.overlayValue (below.map toJson) v
  | .object upper, below => by
    cases below with
    | none => rfl
    | some w =>
      cases w with
      | mapping label base =>
        simp [overlayValue, toJson, Json.overlayValue, toMembers_overlay upper]
      | plain v => cases v <;> rfl
  | .null, _ | .bool _, _ | .int _, _ | .float _, _ | .text _, _ | .array _, _ => rfl

end

namespace Graph

variable {g g' : Graph} {label depth : Nat} {key : Text} {v w : Value}
  {members before after : List (Text × Value)}

/-! ### What a graph holds of a value -/

/-- Members with labels in the place of mappings. -/
def refs (members : List (Text × Value)) : List (Text × Ref) :=
  members.map fun m => (m.1, .ofValue m.2)

mutual

/-- Every mapping of the value is in the cell of its label. -/
def Holds (g : Graph) : Value → Prop
  | .plain _ => True
  | .mapping label members => Assoc.get? label g.cells = some (refs members) ∧ HoldsAll g members

def HoldsAll (g : Graph) : List (Text × Value) → Prop
  | [] => True
  | (_, v) :: rest => Holds g v ∧ HoldsAll g rest

end

/-- The cells of these labels are the same. -/
def Agree (g g' : Graph) (labels : List Nat) : Prop :=
  ∀ label ∈ labels, Assoc.get? label g'.cells = Assoc.get? label g.cells

/-- The cells of all other labels are the same. -/
def AgreeOff (g g' : Graph) (labels : List Nat) : Prop :=
  ∀ label, label ∉ labels → Assoc.get? label g'.cells = Assoc.get? label g.cells

theorem AgreeOff.agree {changed kept : List Nat} (h : AgreeOff g g' changed)
    (hdisjoint : changed.Disjoint kept) : Agree g g' kept :=
  fun label hkept => h label fun hchanged => hdisjoint hchanged hkept

theorem AgreeOff.mono {changed more : List Nat} (h : AgreeOff g g' changed)
    (hsub : changed ⊆ more) : AgreeOff g g' more :=
  fun label hlabel => h label fun hchanged => hlabel (hsub hchanged)

theorem AgreeOff.trans {g'' : Graph} {changed : List Nat} (h : AgreeOff g g' changed)
    (h' : AgreeOff g' g'' changed) : AgreeOff g g'' changed :=
  fun label hlabel => (h' label hlabel).trans (h label hlabel)

mutual

/-- Only the cells of its own labels matter for a value. -/
theorem Holds.congr : ∀ {v : Value}, Holds g v → Agree g g' (labels v) → Holds g' v
  | .plain _, _, _ => trivial
  | .mapping _ _, ⟨hcell, hmembers⟩, h =>
    ⟨(h _ List.mem_cons_self).trans hcell,
      HoldsAll.congr hmembers fun label hlabel => h label (List.mem_cons_of_mem _ hlabel)⟩

theorem HoldsAll.congr : ∀ {members : List (Text × Value)}, HoldsAll g members →
    Agree g g' (labelsOf members) → HoldsAll g' members
  | [], _, _ => trivial
  | (_, _) :: _, ⟨hv, hrest⟩, h =>
    ⟨hv.congr fun label hlabel => h label (List.mem_append_left _ hlabel),
      hrest.congr fun label hlabel => h label (List.mem_append_right _ hlabel)⟩

end

theorem holdsAll_iff : HoldsAll g members ↔ ∀ m ∈ members, Holds g m.2 := by
  induction members with
  | nil => simp [HoldsAll]
  | cons m rest ih => simp [HoldsAll, ih]

theorem holdsAll_append :
    HoldsAll g (before ++ after) ↔ HoldsAll g before ∧ HoldsAll g after := by
  simp only [holdsAll_iff, List.forall_mem_append]

theorem get?_refs (key : Text) (members : List (Text × Value)) :
    Assoc.get? key (refs members) = (Assoc.get? key members).map Ref.ofValue :=
  Assoc.get?_map (fun _ => Ref.ofValue) key members

/-! ### The graph of a value -/

mutual

theorem add_spec : ∀ (v : Value) (g : Graph), (labels v).Nodup →
    (∀ label ∈ labels v, Assoc.get? label g.cells = none) →
    Holds (add g v) v ∧ AgreeOff g (add g v) (labels v)
  | .plain _, _, _, _ => ⟨trivial, fun _ _ => rfl⟩
  | .mapping label members, g, hnodup, hnew => by
    obtain ⟨hlabel, hmembers⟩ := List.nodup_cons.mp hnodup
    rw [add, hnew label List.mem_cons_self]
    let here : Graph := ⟨Assoc.insert label (refs members) g.cells⟩
    have hhere : AgreeOff g here [label] := fun other hother => by
      rw [Assoc.get?_insert, if_neg fun h => hother (List.mem_singleton.mpr h.symm)]
    have hfresh : ∀ other ∈ labelsOf members, Assoc.get? other here.cells = none := by
      intro other hother
      rw [hhere other fun h => hlabel (List.mem_singleton.mp h ▸ hother)]
      exact hnew other (List.mem_cons_of_mem _ hother)
    obtain ⟨hholds, hoff⟩ := addAll_spec members here hmembers hfresh
    refine ⟨⟨(hoff label hlabel).trans ?_, hholds⟩, ?_⟩
    · rw [Assoc.get?_insert, if_pos rfl]
    · exact (hhere.mono (by simp [labels])).trans (hoff.mono (by simp [labels]))

theorem addAll_spec : ∀ (members : List (Text × Value)) (g : Graph), (labelsOf members).Nodup →
    (∀ label ∈ labelsOf members, Assoc.get? label g.cells = none) →
    HoldsAll (addAll g members) members ∧ AgreeOff g (addAll g members) (labelsOf members)
  | [], _, _, _ => ⟨trivial, fun _ _ => rfl⟩
  | (_, v) :: rest, g, hnodup, hnew => by
    obtain ⟨hv, hrest, hdisjoint⟩ := List.nodup_append'.mp hnodup
    obtain ⟨hhead, hoff⟩ := add_spec v g hv fun label h => hnew label (List.mem_append_left _ h)
    have hfresh : ∀ label ∈ labelsOf rest, Assoc.get? label (add g v).cells = none := by
      intro label hlabel
      rw [hoff label fun h => hdisjoint h hlabel]
      exact hnew label (List.mem_append_right _ hlabel)
    obtain ⟨htail, hoff'⟩ := addAll_spec rest (add g v) hrest hfresh
    refine ⟨⟨hhead.congr (hoff'.agree fun _ h h' => hdisjoint h' h), htail⟩, ?_⟩
    exact (hoff.mono (by simp [labelsOf])).trans (hoff'.mono (by simp [labelsOf]))

end

/-! ### Laying members over a mapping -/

/-- A graph comes from another one by a change that makes one value from another, and changes no
cell besides. -/
structure Follows (g g' : Graph) (old new : Value) : Prop where
  holds : Holds g' new
  labels : (labels new).Sublist (labels old)
  off : AgreeOff g g' (Yaml.Value.labels old)

theorem Follows.trans {g'' : Graph} {u : Value} (h : Follows g g' u v) (h' : Follows g' g'' v w) :
    Follows g g'' u w :=
  ⟨h'.holds, h'.labels.trans h.labels, h.off.trans (h'.off.mono h.labels.subset)⟩

/-- The labels below a key. -/
def labelsAt (key : Text) (members : List (Text × Value)) : List Nat :=
  ((Assoc.get? key members).map labels).getD []

/-- The members before and after the place of a key, where writing to the key puts its value. -/
theorem exists_split (key : Text) (members : List (Text × Value)) : ∃ before old after,
    members = before ++ old ++ after ∧ labelsOf old = labelsAt key members
      ∧ ∀ w, Assoc.insert key w members = before ++ (key, w) :: after := by
  rcases Assoc.cases_insert key members with ⟨hnone, hlast⟩ | ⟨v, before, after, hget, hsplit, hplace⟩
  · exact ⟨members, [], [], by simp, by simp [labelsAt, hnone, labelsOf], hlast⟩
  · exact ⟨before, [(key, v)], after, by simp [hsplit], by simp [labelsAt, hget, labelsOf], hplace⟩

theorem members_of_holds (h : Holds g (.mapping label members)) :
    g.members label = refs members := by
  rw [Graph.members, h.1]
  rfl

/-- A value that was made from what is below a key is written to the key. -/
theorem follows_write (h : Holds g (.mapping label members))
    (hnodup : (labels (.mapping label members)).Nodup) (hw : Holds g' w)
    (hlabels : (labels w).Sublist (labelsAt key members))
    (hoff : AgreeOff g g' (labelsAt key members)) :
    Follows g (g'.write label key (.ofValue w)) (.mapping label members)
      (.mapping label (Assoc.insert key w members)) := by
  obtain ⟨before, old, after, hsplit, hold, hinsert⟩ := exists_split key members
  have hall : labels (.mapping label members)
      = label :: (labelsOf before ++ labelsAt key members ++ labelsOf after) := by
    rw [labels, congrArg labelsOf hsplit, Yaml.Value.labelsOf_append,
      Yaml.Value.labelsOf_append, hold]
  have hnew : labels (.mapping label (Assoc.insert key w members))
      = label :: (labelsOf before ++ labels w ++ labelsOf after) := by
    rw [labels, hinsert, Yaml.Value.labelsOf_append, labelsOf, List.append_assoc]
  have hmembers := h.2
  rw [hsplit, holdsAll_append, holdsAll_append] at hmembers
  rw [hall, List.nodup_cons, List.mem_append, List.mem_append, not_or, not_or] at hnodup
  obtain ⟨⟨⟨hbefore, hhere⟩, hafter⟩, hnodup⟩ := hnodup
  obtain ⟨hfront, -, hdisjoint⟩ := List.nodup_append'.mp hnodup
  obtain ⟨-, -, hdisjoint'⟩ := List.nodup_append'.mp hfront
  have hcells : ∀ other, other ≠ label →
      Assoc.get? other (g'.write label key (.ofValue w)).cells = Assoc.get? other g'.cells :=
    fun other hother => by rw [write, Assoc.get?_insert, if_neg hother.symm]
  -- the members beside the key are in cells that nothing was written to
  have hbeside : ∀ other, other ≠ label → other ∉ labelsAt key members →
      Assoc.get? other (g'.write label key (.ofValue w)).cells = Assoc.get? other g.cells :=
    fun other hother hkept => (hcells other hother).trans (hoff other hkept)
  refine ⟨⟨?_, ?_⟩, ?_, ?_⟩
  · rw [write, Assoc.get?_insert, if_pos rfl, Graph.members, hoff label hhere, h.1]
    exact congrArg some (Assoc.insert_map Ref.ofValue key w members)
  · rw [hinsert, holdsAll_append]
    refine ⟨hmembers.1.1.congr fun other hother => ?_, hw.congr fun other hother => ?_,
      hmembers.2.congr fun other hother => ?_⟩
    · exact hbeside other (fun e => hbefore (e ▸ hother)) fun hkept => hdisjoint' hother hkept
    · exact hcells other fun e => hhere (e ▸ hlabels.subset hother)
    · exact hbeside other (fun e => hafter (e ▸ hother)) fun hkept =>
        hdisjoint (List.mem_append_right _ hkept) hother
  · rw [hall, hnew]
    exact (((List.Sublist.refl _).append hlabels).append_right _).cons_cons _
  · intro other hother
    rw [hall, List.mem_cons, List.mem_append, List.mem_append, not_or, not_or, not_or] at hother
    exact hbeside other hother.1 hother.2.1.2

/-- Writing a value without mappings. -/
theorem follows_write_plain (h : Holds g (.mapping label members))
    (hnodup : (labels (.mapping label members)).Nodup) (x : Json) :
    Follows g (g.write label key (.plain x)) (.mapping label members)
      (.mapping label (Assoc.insert key (.plain x) members)) :=
  follows_write (w := .plain x) h hnodup trivial (List.nil_sublist _) fun _ _ => rfl

mutual

theorem follows_overlay : ∀ (upper : List (Text × Json)) {depth : Nat} {g g' : Graph} {label : Nat}
    {base : List (Text × Value)}, Holds g (.mapping label base) →
    (labels (.mapping label base)).Nodup → overlay depth g label upper = some g' →
    Follows g g' (.mapping label base) (.mapping label (Yaml.Value.overlay base upper))
  | [], _, _, _, _, _, h, _, hover => by
    cases hover
    exact ⟨h, .refl _, fun _ _ => rfl⟩
  | (key, v) :: rest, _, _, _, _, _, h, hnodup, hover => by
    obtain ⟨between, hat, hrest⟩ := Option.bind_eq_some_iff.mp hover
    have hfirst := follows_overlayAt v h hnodup hat
    exact hfirst.trans (follows_overlay rest hfirst.holds (hnodup.sublist hfirst.labels) hrest)

theorem follows_overlayAt : ∀ (v : Json) {depth : Nat} {g g' : Graph} {label : Nat} {key : Text}
    {base : List (Text × Value)}, Holds g (.mapping label base) →
    (labels (.mapping label base)).Nodup → overlayAt depth g label key v = some g' →
    Follows g g' (.mapping label base)
      (.mapping label (Assoc.insert key (Yaml.Value.overlayValue (Assoc.get? key base) v) base))
  | .object upper, depth, g, g', label, key, base, h, hnodup, hover => by
    unfold overlayAt at hover
    rw [members_of_holds h, get?_refs] at hover
    cases hget : Assoc.get? key base with
    | none =>
      rw [hget] at hover
      cases hover
      exact follows_write_plain h hnodup _
    | some below =>
      rw [hget] at hover
      cases below with
      | plain v =>
        cases v with
        | object under =>
          simp only [Option.map_some, Ref.ofValue] at hover
          split at hover
          · cases hover
            exact follows_write_plain h hnodup _
          · cases hover
        | _ =>
          cases hover
          exact follows_write_plain h hnodup _
      | mapping inner under =>
        have hat : labelsAt key base = labels (.mapping inner under) := by rw [labelsAt, hget]; rfl
        have hmem := Assoc.mem_of_get? hget
        have hunder : Holds g (.mapping inner under) := holdsAll_iff.mp h.2 _ hmem
        have hsub := Yaml.Value.labels_sublist_of_mem hmem
        cases depth with
        | zero => cases hover
        | succ depth =>
          obtain ⟨between, hbetween, rfl⟩ := Option.map_eq_some_iff.mp hover
          have hinner := follows_overlay upper hunder
            ((List.nodup_cons.mp hnodup).2.sublist hsub) hbetween
          exact follows_write (w := .mapping inner (Yaml.Value.overlay under upper)) h hnodup
            hinner.holds (hat ▸ hinner.labels) (hat ▸ hinner.off)
  | .null, _, _, _, _, _, _, h, hnodup, hover | .bool _, _, _, _, _, _, _, h, hnodup, hover
  | .int _, _, _, _, _, _, _, h, hnodup, hover | .float _, _, _, _, _, _, _, h, hnodup, hover
  | .text _, _, _, _, _, _, _, h, hnodup, hover | .array _, _, _, _, _, _, _, h, hnodup, hover => by
    cases hover
    exact follows_write_plain h hnodup _

end

/-! ### Reading a value off a graph -/

/-- What stands below a label, and under a key of it. -/
theorem unfold_mapping (h : Holds g (.mapping label members)) (depth : Nat) :
    g.unfold (depth + 1) (.cell label)
      = .object (members.map fun m => (m.1, g.unfold depth (.ofValue m.2))) := by
  rw [unfold, members_of_holds h, refs, List.map_map]
  rfl

/-- Down to the depth that is shown, paths lead where they do in the value. -/
theorem found?_unfold : ∀ {path : List Text} {depth : Nat} {v : Value}, path.length ≤ depth →
    Holds g v → Json.found? path (g.unfold depth (.ofValue v)) = Json.found? path (toJson v)
  | _, _, .plain v, _, _ => by rw [Ref.ofValue, unfold, toJson]
  | [], 0, .mapping _ _, _, _ => rfl
  | [], _ + 1, .mapping _ _, _, h => by rw [Ref.ofValue, unfold_mapping h]; rfl
  | key :: rest, depth + 1, .mapping label members, hdepth, h => by
    rw [Ref.ofValue, unfold_mapping h, toJson, Json.found?_cons_object, Json.found?_cons_object,
      Yaml.Value.get?_toMembers, Assoc.get?_map (fun _ v => g.unfold depth (.ofValue v))]
    cases hget : Assoc.get? key members with
    | none => rfl
    | some v =>
      exact found?_unfold (Nat.le_of_succ_le_succ hdepth)
        (holdsAll_iff.mp h.2 _ (Assoc.mem_of_get? hget))

/-- What is shown of a value has distinct keys if the value has. -/
theorem distinct_unfold : ∀ {depth : Nat} {v : Value}, Holds g v → Json.Distinct (toJson v) →
    Json.Distinct (g.unfold depth (.ofValue v))
  | _, .plain v, _, hv => by rwa [Ref.ofValue, unfold]
  | 0, .mapping _ _, _, _ => ⟨List.nodup_nil, trivial⟩
  | depth + 1, .mapping label members, h, ⟨hkeys, hvalues⟩ => by
    rw [Yaml.Value.toMembers_eq, Json.distinctMembers_iff, List.forall_mem_map] at hvalues
    rw [Yaml.Value.toMembers_eq, Assoc.keys, List.map_map] at hkeys
    rw [Ref.ofValue, unfold_mapping h, Json.Distinct, Json.distinctMembers_iff, List.forall_mem_map,
      Assoc.keys, List.map_map]
    exact ⟨hkeys, fun m hm => distinct_unfold (holdsAll_iff.mp h.2 m hm) (hvalues m hm)⟩

end Graph

end AuthorWatch
