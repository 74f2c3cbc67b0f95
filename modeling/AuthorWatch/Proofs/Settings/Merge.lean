import AuthorWatch.Proofs.OrderedMap
import AuthorWatch.Proofs.Settings.Paths
import AuthorWatch.Settings.Merge

/-! Laying one object over another, path by path. What the upper one has at a path is found there.
Elsewhere the lower one shows through, unless the path meets a value of the upper one that is no
object. Laying the same over the result once more changes nothing. -/

namespace AuthorWatch.Json

variable {v : Json} {base members : List (Text × Json)} {key : Text}

mutual

/-- Objects have each of their keys once. -/
def Distinct : Json → Prop
  | object members => (Assoc.keys members).Nodup ∧ DistinctMembers members
  | _ => True

def DistinctMembers : List (Text × Json) → Prop
  | [] => True
  | (_, v) :: rest => Distinct v ∧ DistinctMembers rest

end

theorem distinctMembers_iff : DistinctMembers members ↔ ∀ m ∈ members, Distinct m.2 := by
  induction members with
  | nil => simp [DistinctMembers]
  | cons m rest ih => simp [DistinctMembers, ih]

/-- Every key is laid over what the lower object has under it. -/
theorem get?_overlay (hdistinct : (Assoc.keys members).Nodup) (base : List (Text × Json))
    (key : Text) : Assoc.get? key (overlay base members)
      = ((Assoc.get? key members).map (overlayValue (Assoc.get? key base))).or
        (Assoc.get? key base) := by
  induction members generalizing base with
  | nil => rfl
  | cons m rest ih =>
    obtain ⟨other, v⟩ := m
    obtain ⟨hnew, hrest⟩ := List.nodup_cons.mp hdistinct
    rw [overlay, ih hrest, Assoc.get?_insert, Assoc.get?]
    by_cases hk : other = key
    · subst hk
      simp [(Assoc.get?_eq_none_iff _ rest).mpr hnew]
    · simp [hk]

/-! ### Paths -/

/-- The path meets a value that is no object, at its end or before. -/
def meetsValue : List Text → Json → Bool
  | [], object _ => false
  | key :: rest, object members => ((Assoc.get? key members).map (meetsValue rest)).getD false
  | _, _ => true

theorem meetsValue_iff {path : List Text} :
    meetsValue path v = true ↔ ∃ q, q <+: path ∧ ∃ x, found? q v = some (.value x) := by
  induction path generalizing v with
  | nil =>
    cases v with
    | object members => simp [meetsValue]
    | _ => simp [meetsValue, found?]
  | cons key rest ih =>
    cases v with
    | object members =>
      have hsteps : (∃ q, q <+: key :: rest ∧ ∃ x, found? q (object members) = some (.value x))
          ↔ ∃ q, q <+: rest ∧ ∃ x, (Assoc.get? key members).bind (found? q) = some (.value x) := by
        constructor
        · rintro ⟨q, hq, x, hx⟩
          rcases List.prefix_cons_iff.mp hq with rfl | ⟨q, rfl, hrest⟩
          · cases hx
          · exact ⟨q, hrest, x, hx⟩
        · rintro ⟨q, hq, x, hx⟩
          exact ⟨key :: q, List.cons_prefix_cons.mpr ⟨rfl, hq⟩, x, hx⟩
      rw [hsteps, meetsValue]
      cases Assoc.get? key members with
      | none => simp
      | some w => simpa using ih
    | _ => exact iff_of_true rfl ⟨[], List.nil_prefix, _, rfl⟩

/-- What a path leads to in an object that was laid over another. -/
theorem found?_overlay {path : List Text} (hdistinct : Distinct (object members)) :
    found? path (object (overlay base members)) = (found? path (object members)).or
      (if meetsValue path (object members) then none else found? path (object base)) := by
  induction path generalizing base members with
  | nil => rfl
  | cons key rest ih =>
    obtain ⟨hkeys, hvalues⟩ := hdistinct
    rw [found?_cons_object, found?_cons_object, found?_cons_object, meetsValue, get?_overlay hkeys]
    rcases Option.eq_none_or_eq_some (Assoc.get? key members) with hupper | ⟨v, hupper⟩
    · simp [hupper]
    · simp only [hupper, Option.map_some, Option.some_or, Option.bind_some, Option.getD_some]
      cases v with
      | object inner =>
        have hinner : Distinct (object inner) :=
          distinctMembers_iff.mp hvalues _ (Assoc.mem_of_get? hupper)
        cases hlower : Assoc.get? key base with
        | none => simp [overlayValue]
        | some w =>
          cases w with
          | object under => exact ih hinner
          | _ => cases rest <;> simp [overlayValue, found?]
      | _ => cases rest <;> simp [overlayValue, meetsValue]

/-- The values of the upper object are there, and those of the lower one that it leaves. -/
theorem found?_overlay_eq_value_iff {path : List Text} {x : Json}
    (hdistinct : Distinct (object members)) :
    found? path (object (overlay base members)) = some (.value x)
      ↔ found? path (object members) = some (.value x)
        ∨ found? path (object base) = some (.value x) ∧ found? path (object members) = none
          ∧ ∀ q, q <+: path → ∀ y, found? q (object members) ≠ some (.value y) := by
  have hfree : (∀ q, q <+: path → ∀ y, found? q (object members) ≠ some (.value y))
      ↔ meetsValue path (object members) = false := by
    rw [Bool.eq_false_iff, Ne, meetsValue_iff]
    push Not
    rfl
  rw [found?_overlay hdistinct, hfree]
  cases found? path (object members) <;> cases meetsValue path (object members) <;> simp

/-! ### Distinct keys -/

theorem keys_overlay_nodup (h : (Assoc.keys base).Nodup) :
    (Assoc.keys (overlay base members)).Nodup := by
  induction members generalizing base with
  | nil => exact h
  | cons m rest ih => exact ih (Assoc.nodup_keys_insert h)

theorem distinctMembers_insert (hbase : DistinctMembers base) (hv : Distinct v) :
    DistinctMembers (Assoc.insert key v base) := by
  rw [distinctMembers_iff] at hbase ⊢
  intro m hm
  rcases Assoc.mem_of_mem_insert hm with hm | rfl
  · exact hbase m hm
  · exact hv

mutual

theorem distinct_overlay : ∀ (members base : List (Text × Json)), DistinctMembers members →
    DistinctMembers base → DistinctMembers (overlay base members)
  | [], _, _, hbase => hbase
  | (_, v) :: rest, _, ⟨hv, hrest⟩, hbase =>
    distinct_overlay rest _ hrest (distinctMembers_insert hbase
      (distinct_overlayValue v _ hv fun _ hw => distinctMembers_iff.mp hbase _ (Assoc.mem_of_get? hw)))

theorem distinct_overlayValue : ∀ (v : Json) (below : Option Json), Distinct v →
    (∀ w, below = some w → Distinct w) → Distinct (overlayValue below v)
  | object members, below, hv, hbelow => by
    cases below with
    | none => exact hv
    | some w =>
      cases w with
      | object base =>
        obtain ⟨hkeys, hbase⟩ := hbelow _ rfl
        exact ⟨keys_overlay_nodup hkeys, distinct_overlay members base hv.2 hbase⟩
      | _ => exact hv
  | null, _, _, _ | bool _, _, _, _ | int _, _, _, _ | float _, _, _, _ | text _, _, _, _
  | array _, _, _, _ => trivial

end

theorem distinct_object_overlay (hbase : Distinct (object base)) (h : Distinct (object members)) :
    Distinct (object (overlay base members)) :=
  ⟨keys_overlay_nodup hbase.1, distinct_overlay members base h.2 hbase.2⟩

/-! ### The same once more -/

/-- Members that are already over an object leave it as it is. -/
theorem overlay_of_overlaid (h : ∀ m ∈ members, ∃ w,
    Assoc.get? m.1 base = some w ∧ overlayValue (some w) m.2 = w) : overlay base members = base := by
  induction members with
  | nil => rfl
  | cons m rest ih =>
    obtain ⟨key, v⟩ := m
    obtain ⟨w, hget, hsame⟩ := h (key, v) List.mem_cons_self
    rw [overlay, hget, hsame, Assoc.insert_of_get? hget]
    exact ih fun m hm => h m (List.mem_cons_of_mem _ hm)

/-- Members whose values change nothing once they are laid over change nothing themselves. -/
theorem overlay_overlay_of_values (hkeys : (Assoc.keys members).Nodup)
    (hvalues : ∀ m ∈ members, ∀ below,
      overlayValue (some (overlayValue below m.2)) m.2 = overlayValue below m.2)
    (base : List (Text × Json)) : overlay (overlay base members) members = overlay base members := by
  refine overlay_of_overlaid fun m hm => ⟨overlayValue (Assoc.get? m.1 base) m.2, ?_, hvalues m hm _⟩
  rw [get?_overlay hkeys, Assoc.get?_of_mem hkeys hm]
  rfl

theorem overlayValue_none (v : Json) : overlayValue none v = v := by cases v <;> rfl

mutual

theorem overlayValue_overlayValue : ∀ v, Distinct v → ∀ below,
    overlayValue (some (overlayValue below v)) v = overlayValue below v
  | object members, ⟨hkeys, hvalues⟩, below => by
    have hmembers := overlayValue_members members hvalues
    have hself : overlay members members = members := by
      refine overlay_of_overlaid fun m hm => ⟨m.2, Assoc.get?_of_mem hkeys hm, ?_⟩
      have hsame := hmembers m hm none
      rwa [overlayValue_none] at hsame
    have hover := overlay_overlay_of_values hkeys hmembers
    cases below with
    | none => simp [overlayValue, hself]
    | some w => cases w <;> simp [overlayValue, hself, hover]
  | null, _, _ | bool _, _, _ | int _, _, _ | float _, _, _ | text _, _, _ | array _, _, _ => rfl

theorem overlayValue_members : ∀ members, DistinctMembers members → ∀ m ∈ members, ∀ below,
    overlayValue (some (overlayValue below m.2)) m.2 = overlayValue below m.2
  | [], _ => nofun
  | (_, v) :: rest, ⟨hv, hrest⟩ =>
    List.forall_mem_cons.mpr ⟨overlayValue_overlayValue v hv, overlayValue_members rest hrest⟩

end

theorem overlay_overlay (hdistinct : Distinct (object members)) (base : List (Text × Json)) :
    overlay (overlay base members) members = overlay base members :=
  overlay_overlay_of_values hdistinct.1 (overlayValue_members members hdistinct.2) base

end AuthorWatch.Json
