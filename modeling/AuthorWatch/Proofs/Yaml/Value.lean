import AuthorWatch.Proofs.Except
import AuthorWatch.Proofs.Settings.Graph

/-! The mappings of a document have each of their keys once, also those that other mappings were
merged into. -/

namespace AuthorWatch

variable {α β γ : Type}

/-! ### What is built without a fault -/

namespace Yaml

open Json (Distinct)

namespace Built

theorem eq_ok_of_below {x : Built α} {a : α} (h : x.below = .ok a) : x = .ok a := by
  cases x with
  | error e => cases h
  | ok b => exact h

theorem exists_of_both {f : α → β → γ} {x : Built α} {y : Built β} {c : γ}
    (h : both f x y = .ok c) : ∃ a b, x = .ok a ∧ y = .ok b ∧ f a b = c := by
  cases x with
  | error e => cases y <;> cases h
  | ok a =>
    cases y with
    | error e => cases h
    | ok b => cases h; exact ⟨a, b, rfl, rfl, rfl⟩

theorem mem_of_all {xs : List (Built α)} {found : List α} (h : all xs = .ok found) :
    ∀ a ∈ found, .ok a ∈ xs := by
  induction xs generalizing found with
  | nil => cases h; exact nofun
  | cons x rest ih =>
    obtain ⟨a, more, rfl, hrest, rfl⟩ := exists_of_both h
    refine List.forall_mem_cons.mpr ⟨List.mem_cons_self, fun b hb => ?_⟩
    exact List.mem_cons_of_mem _ (ih hrest b hb)

end Built

/-- The values of the pairs have distinct keys. -/
def Pair.AllDistinct (pairs : List Pair) : Prop :=
  ∀ p ∈ pairs, ∀ v, p.value = .ok v → Distinct v.toJson

/-- The members made from pairs have each key once. -/
theorem Pair.distinct_toMembers {pairs : List Pair} {members : List (Text × Value)}
    (hpairs : AllDistinct pairs) (h : toMembers pairs = .ok members) :
    Distinct (.object (Value.toMembers members)) := by
  obtain ⟨found, hfound, rfl⟩ := exists_of_map_eq_ok h
  rw [Value.toMembers_eq]
  refine ⟨?_, ?_⟩
  · rw [Assoc.keys, List.map_map]
    exact Assoc.nodup_keys_insertAll List.nodup_nil
  · rw [Json.distinctMembers_iff, List.forall_mem_map]
    intro m hm
    have hmem : some m ∈ found := by
      rcases Assoc.mem_of_mem_insertAll hm with hm | hm
      · cases hm
      · obtain ⟨_, hm, rfl⟩ := List.mem_filterMap.mp hm
        exact hm
    obtain ⟨p, hp, hboth⟩ := List.mem_map.mp (Built.mem_of_all hfound _ hmem)
    obtain ⟨k, v, -, hv, hkey⟩ := Built.exists_of_both hboth
    obtain ⟨key, -, rfl⟩ := Option.map_eq_some_iff.mp hkey
    exact hpairs p hp v hv

namespace Node

theorem distinct_of_scalar {tag : Tag} {t : Text} {v : Json} (h : scalarValue tag t = .ok v) :
    Distinct v := by
  unfold scalarValue at h
  split at h
  case h_1 | h_7 => cases h; trivial
  case h_8 => cases h
  case h_5 =>
    obtain ⟨bytes, -, rfl⟩ := exists_of_map_eq_ok h
    cases Utf8.decode? bytes <;> trivial
  all_goals
    obtain ⟨_, -, rfl⟩ := exists_of_map_eq_ok h
    trivial

theorem distinct_of_here {x : Except YamlError Json} {v : Value}
    (hx : ∀ y, x = .ok y → Distinct y) (h : (Built.here x).map Value.plain = .ok v) :
    Distinct v.toJson := by
  cases x with
  | error e => cases h
  | ok y =>
    cases h
    exact hx y rfl

theorem distinct_of_asScalar {tag : Tag} {n : Node} {v : Value}
    (h : (n.asScalar tag).map Value.plain = .ok v) : Distinct v.toJson := by
  unfold asScalar at h
  refine distinct_of_here (fun y hy => ?_) h
  split at hy
  · cases hy
  · cases hy
  · exact distinct_of_scalar hy

/-- The pairs of a mapping are those merged into it and its own. -/
theorem allDistinct_merged {parts : Except YamlError (List Pair × List Pair)} {found : List Pair}
    (hparts : ∀ {others own : List Pair}, parts = .ok (others, own) →
      Pair.AllDistinct others ∧ Pair.AllDistinct own)
    (h : merged parts = .ok found) : Pair.AllDistinct found := by
  obtain ⟨⟨others, own⟩, hsplit, rfl⟩ := exists_of_map_eq_ok h
  obtain ⟨hothers, hown⟩ := hparts hsplit
  exact List.forall_mem_append.mpr ⟨hothers, hown⟩

mutual

theorem distinct_value : ∀ (n : Node) {v : Value}, value n = .ok v → Distinct v.toJson
  | .scalar tag t, v, h => by
    unfold value at h
    split at h
    · exact distinct_of_here (fun _ => distinct_of_scalar) h
    · cases h
  | .sequence tag items, v, h => by
    unfold value at h
    split at h
    case h_1 | h_2 | h_3 =>
      obtain ⟨_, -, rfl⟩ := exists_of_map_eq_ok h
      trivial
    all_goals cases h
  | .mapping label tag pairs, v, h => by
    unfold value at h
    split at h
    case h_1 =>
      obtain ⟨members, hmembers, rfl⟩ := exists_of_map_eq_ok h
      have hopened := Built.eq_ok_of_below hmembers
      unfold opened at hopened
      split at hopened
      next => cases hopened
      next found hfound =>
        exact Pair.distinct_toMembers (allDistinct_merged (distinct_split pairs) hfound) hopened
    case h_2 =>
      obtain ⟨_, -, rfl⟩ := exists_of_map_eq_ok h
      trivial
    case h_6 => exact distinct_of_asScalar h
    all_goals cases h
  | .loop _, v, h => by
    unfold value at h
    cases h
    trivial

theorem distinct_split : ∀ (pairs : List (Node × Node)) {others own : List Pair},
    split pairs = .ok (others, own) → Pair.AllDistinct others ∧ Pair.AllDistinct own
  | [], _, _, h => by
    unfold split at h
    cases h
    exact ⟨nofun, nofun⟩
  | (k, v) :: rest, _, _, h => by
    unfold split at h
    split at h
    · split at h
      next pairs others own hpairs hrest =>
        cases h
        obtain ⟨hothers, hown⟩ := distinct_split rest hrest
        exact ⟨List.forall_mem_append.mpr ⟨distinct_source v hpairs, hothers⟩, hown⟩
      next => cases h
    · obtain ⟨⟨others, own⟩, hrest, heq⟩ := exists_of_map_eq_ok h
      cases heq
      obtain ⟨hothers, hown⟩ := distinct_split rest hrest
      exact ⟨hothers, List.forall_mem_cons.mpr ⟨fun _ hv => distinct_value v hv, hown⟩⟩

theorem distinct_source : ∀ (n : Node) {found : List Pair}, source n = .ok found →
    Pair.AllDistinct found
  | .mapping _ _ pairs, _, h => by
    unfold source at h
    exact allDistinct_merged (distinct_split pairs) h
  | .sequence _ items, _, h => by
    unfold source at h
    obtain ⟨found, hfound, rfl⟩ := exists_of_map_eq_ok h
    intro p hp
    obtain ⟨pairs, hpairs, hp⟩ := List.mem_flatten.mp hp
    exact distinct_sources items hfound pairs (List.mem_reverse.mp hpairs) p hp
  | .scalar _ _, _, h | .loop _, _, h => by
    unfold source at h
    cases h

theorem distinct_sources : ∀ (items : List Node) {found : List (List Pair)},
    sources items = .ok found → ∀ pairs ∈ found, Pair.AllDistinct pairs
  | [], _, h => by
    unfold sources at h
    cases h
    exact nofun
  | .mapping _ _ pairs :: rest, _, h => by
    unfold sources at h
    split at h
    next found more hfound hmore =>
      cases h
      exact List.forall_mem_cons.mpr
        ⟨allDistinct_merged (distinct_split pairs) hfound, distinct_sources rest hmore⟩
    next => cases h
  | .scalar _ _ :: _, _, h | .sequence _ _ :: _, _, h | .loop _ :: _, _, h => by
    unfold sources at h
    cases h

end

end Node

theorem distinct_of_read {t : Text} {v : Value} (h : read t = .ok v) : Distinct v.toJson := by
  unfold read at h
  split at h
  · cases h
  obtain ⟨tokens, -, h⟩ := exists_of_bind_eq_ok h
  obtain ⟨found, -, h⟩ := exists_of_bind_eq_ok h
  cases found with
  | none => cases h; trivial
  | some n =>
    dsimp only at h
    cases hvalue : n.value with
    | error e => rw [hvalue] at h; cases h
    | ok w =>
      rw [hvalue] at h
      cases h
      exact n.distinct_value hvalue

end Yaml

end AuthorWatch
