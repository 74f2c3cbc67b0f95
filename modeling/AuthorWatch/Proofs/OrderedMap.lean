import AuthorWatch.OrderedMap
import Mathlib.Data.List.Forall2
import Mathlib.Data.List.Induction

/-! What a map holds under a key after each of its operations. Keys are distinct, so a
list that is gathered from the entries has one part for each key. -/

namespace AuthorWatch

namespace Assoc

variable {κ α β : Type} [DecidableEq κ]

theorem get?_eq_none_iff (key : κ) (entries : List (κ × α)) :
    get? key entries = none ↔ key ∉ keys entries := by
  induction entries with
  | nil => simp [get?, keys]
  | cons entry rest ih =>
    obtain ⟨k, v⟩ := entry
    by_cases hk : k = key
    · simp [get?, keys, hk]
    · have hk' : ¬ key = k := fun h => hk h.symm
      rw [get?, if_neg hk, ih]
      simp [keys, hk']

theorem mem_of_get? {key : κ} {value : α} {entries : List (κ × α)}
    (h : get? key entries = some value) : (key, value) ∈ entries := by
  induction entries with
  | nil => simp [get?] at h
  | cons entry rest ih =>
    obtain ⟨k, v⟩ := entry
    rw [get?] at h
    split at h
    next hk => simp_all
    next => exact List.mem_cons_of_mem _ (ih h)

theorem get?_of_mem {key : κ} {value : α} {entries : List (κ × α)} (hd : (keys entries).Nodup)
    (h : (key, value) ∈ entries) : get? key entries = some value := by
  induction entries with
  | nil => simp at h
  | cons entry rest ih =>
    obtain ⟨k, v⟩ := entry
    simp only [keys, List.map_cons, List.nodup_cons] at hd
    rcases List.mem_cons.mp h with he | hr
    · cases he; simp [get?]
    · have hk : k ≠ key := by
        rintro rfl
        exact hd.1 (List.mem_map_of_mem (f := Prod.fst) hr)
      rw [get?, if_neg hk]
      exact ih hd.2 hr

/-- Writing what is there already changes nothing. -/
theorem insert_of_get? {key : κ} {value : α} {entries : List (κ × α)}
    (h : get? key entries = some value) : insert key value entries = entries := by
  induction entries with
  | nil => simp [get?] at h
  | cons entry rest ih =>
    obtain ⟨k, v⟩ := entry
    rw [get?] at h
    split at h
    next hk => simp_all [insert]
    next hk => rw [insert, if_neg hk, ih h]

theorem insert_of_not_mem {key : κ} (value : α) {entries : List (κ × α)}
    (h : key ∉ keys entries) : insert key value entries = entries ++ [(key, value)] := by
  induction entries with
  | nil => rfl
  | cons entry rest ih =>
    obtain ⟨k, v⟩ := entry
    simp only [keys, List.map_cons, List.mem_cons, not_or] at h
    rw [insert, if_neg (fun hk => h.1 hk.symm), ih h.2, List.cons_append]

/-- Writing to a key replaces its value in its place, or comes last. -/
theorem cases_insert (key : κ) (entries : List (κ × α)) :
    (get? key entries = none ∧ ∀ w, insert key w entries = entries ++ [(key, w)])
    ∨ ∃ v before after, get? key entries = some v ∧ entries = before ++ (key, v) :: after
      ∧ ∀ w, insert key w entries = before ++ (key, w) :: after := by
  induction entries with
  | nil => exact .inl ⟨rfl, fun _ => rfl⟩
  | cons entry rest ih =>
    obtain ⟨k, v⟩ := entry
    by_cases hk : k = key
    · subst hk
      exact .inr ⟨v, [], rest, by simp [get?], rfl, fun w => by simp [insert]⟩
    · rcases ih with ⟨hnone, hlast⟩ | ⟨w, before, after, hget, hsplit, hplace⟩
      · exact .inl ⟨by simp [get?, hk, hnone], fun w => by simp [insert, hk, hlast]⟩
      · refine .inr ⟨w, (k, v) :: before, after, by simp [get?, hk, hget], by simp [hsplit], ?_⟩
        intro w
        simp [insert, hk, hplace]

theorem mem_of_mem_insert {key : κ} {value : α} {entries : List (κ × α)} {entry : κ × α}
    (h : entry ∈ insert key value entries) : entry ∈ entries ∨ entry = (key, value) := by
  induction entries with
  | nil => simpa [insert] using h
  | cons other rest ih =>
    obtain ⟨k, v⟩ := other
    by_cases hk : k = key
    · subst hk
      rw [insert, if_pos rfl, List.mem_cons] at h
      rcases h with h | h
      · exact .inr h
      · exact .inl (List.mem_cons_of_mem _ h)
    · rw [insert, if_neg hk, List.mem_cons] at h
      rcases h with h | h
      · exact .inl (h ▸ List.mem_cons_self ..)
      · rcases ih h with h | h
        · exact .inl (List.mem_cons_of_mem _ h)
        · exact .inr h

theorem mem_of_mem_insertAll {entries pairs : List (κ × α)} {entry : κ × α}
    (h : entry ∈ insertAll entries pairs) : entry ∈ entries ∨ entry ∈ pairs := by
  induction pairs generalizing entries with
  | nil => exact .inl h
  | cons pair pairs ih =>
    rcases ih h with h | h
    · rcases mem_of_mem_insert h with h | h
      · exact .inl h
      · exact .inr (h ▸ List.mem_cons_self ..)
    · exact .inr (List.mem_cons_of_mem _ h)

/-- Pairs with new and distinct keys are added at the end. -/
theorem insertAll_of_nodup (entries pairs : List (κ × α))
    (h : (keys (entries ++ pairs)).Nodup) : insertAll entries pairs = entries ++ pairs := by
  induction pairs generalizing entries with
  | nil => simp [insertAll]
  | cons pair pairs ih =>
    have hnew : pair.1 ∉ keys entries := by
      simp only [keys, List.map_append, List.map_cons, List.nodup_append] at h
      exact fun hm => h.2.2 _ hm _ (List.mem_cons_self ..) rfl
    have hstep : insertAll entries (pair :: pairs) = insertAll (entries ++ [pair]) pairs := by
      rw [insertAll, List.foldl_cons, insert_of_not_mem _ hnew]
      rfl
    rw [hstep, ih _ (by simpa using h), List.append_assoc, List.singleton_append]

theorem insertAll_concat (entries pairs : List (κ × α)) (pair : κ × α) :
    insertAll entries (pairs ++ [pair]) = insert pair.1 pair.2 (insertAll entries pairs) :=
  List.foldl_append

/-- The last value of a key is kept. -/
theorem get?_insertAll (key : κ) (pairs : List (κ × α)) :
    get? key (insertAll [] pairs) = get? key pairs.reverse := by
  induction pairs using List.reverseRecOn with
  | nil => rfl
  | append_singleton pairs pair ih =>
    rw [insertAll_concat, get?_insert, ih, List.reverse_append, List.reverse_singleton,
      List.singleton_append, get?]

/-- Keys stand in the order in which they come first. -/
theorem keys_insertAll [BEq κ] [LawfulBEq κ] (pairs : List (κ × α)) :
    keys (insertAll [] pairs) = (keys pairs).eraseDups := by
  induction pairs using List.reverseRecOn with
  | nil => rfl
  | append_singleton pairs pair ih =>
    have hkeys : keys (pairs ++ [pair]) = keys pairs ++ [pair.1] := List.map_append
    rw [insertAll_concat, keys_insert, ih, hkeys, List.eraseDups_append]
    by_cases h : pair.1 ∈ keys pairs <;> simp [h, List.removeAll, List.eraseDups_cons]

theorem insert_map (f : α → β) (key : κ) (value : α) (entries : List (κ × α)) :
    insert key (f value) (entries.map fun entry => (entry.1, f entry.2))
      = (insert key value entries).map fun entry => (entry.1, f entry.2) := by
  induction entries with
  | nil => rfl
  | cons entry rest ih =>
    obtain ⟨k, v⟩ := entry
    by_cases hk : k = key
    · simp [insert, hk]
    · simp [insert, hk, ih]

theorem get?_map (f : κ → α → β) (key : κ) (entries : List (κ × α)) :
    get? key (entries.map fun (k, v) => (k, f k v)) = (get? key entries).map (f key) := by
  induction entries with
  | nil => rfl
  | cons entry rest ih =>
    obtain ⟨k, v⟩ := entry
    by_cases hk : k = key
    · subst hk; simp [get?]
    · simp only [List.map_cons, get?, hk, if_false]
      exact ih

theorem get?_filter (p : κ → Bool) (key : κ) (entries : List (κ × α)) :
    get? key (entries.filter fun entry => p entry.1)
      = if p key then get? key entries else none := by
  induction entries with
  | nil => simp [get?]
  | cons entry rest ih =>
    obtain ⟨k, v⟩ := entry
    by_cases hk : k = key
    · subst hk
      cases hp : p k <;> simp [hp, get?] at ih ⊢
      exact ih
    · cases hp : p k <;> simp [hp, get?, hk, ih]

/-- If every entry gathers items that bear its key, then the items that bear a key are
those gathered under it. -/
theorem filter_flatMap (tag : β → κ) (f : κ → α → List β) (key : κ) (entries : List (κ × α))
    (hd : (keys entries).Nodup) (ht : ∀ k v, ∀ b ∈ f k v, tag b = k) :
    (entries.flatMap fun entry => f entry.1 entry.2).filter (fun b => tag b = key)
      = (get? key entries).elim [] (f key) := by
  induction entries with
  | nil => rfl
  | cons entry rest ih =>
    obtain ⟨k, v⟩ := entry
    simp only [keys, List.map_cons, List.nodup_cons] at hd
    rw [List.flatMap_cons, List.filter_append, ih hd.2, get?]
    by_cases hk : k = key
    · subst hk
      have hrest : get? k rest = none := (get?_eq_none_iff k rest).mpr hd.1
      have hall : (f k v).filter (fun b => tag b = k) = f k v := by
        rw [List.filter_eq_self]
        intro b hb
        simp [ht k v b hb]
      simp [hrest, hall]
    · have hnone : (f k v).filter (fun b => tag b = key) = [] := by
        rw [List.filter_eq_nil_iff]
        intro b hb
        simp [ht k v b hb, hk]
      simp [hk, hnone]

/-- Pairs with equal keys in equal places, and values that are related. -/
def Matches (r : α → β → Prop) : List (κ × α) → List (κ × β) → Prop :=
  List.Forall₂ fun a b => a.1 = b.1 ∧ r a.2 b.2

variable {r : α → β → Prop} {as : List (κ × α)} {bs : List (κ × β)}

omit [DecidableEq κ] in
theorem Matches.reverse (h : Matches r as bs) : Matches r as.reverse bs.reverse :=
  List.rel_reverse h

omit [DecidableEq κ] in
theorem keys_of_matches (h : Matches r as bs) : keys as = keys bs := by
  induction h with
  | nil => rfl
  | cons hpair _ ih => exact congrArg₂ List.cons hpair.1 ih

theorem get?_of_matches (h : Matches r as bs) {key : κ} {a : α} (ha : get? key as = some a) :
    ∃ b, r a b ∧ get? key bs = some b := by
  induction h with
  | nil => cases ha
  | @cons first pair as bs hpair _ ih =>
    obtain ⟨k, v⟩ := first
    obtain ⟨k', w⟩ := pair
    obtain ⟨rfl, hvalue⟩ := hpair
    rw [get?] at ha
    split at ha
    next hk =>
      cases ha
      exact ⟨w, hvalue, if_pos hk⟩
    next hk =>
      obtain ⟨b, hb, hget⟩ := ih ha
      exact ⟨b, hb, (if_neg hk).trans hget⟩

end Assoc

namespace OrderedMap

variable {α β : Type}

@[simp] theorem get?_insert (m : OrderedMap α) (key other : Text) (value : α) :
    (m.insert key value).get? other = if key = other then some value else m.get? other :=
  Assoc.get?_insert key other value m.entries

@[simp] theorem get?_mapValues (f : Text → α → β) (m : OrderedMap α) (key : Text) :
    (m.mapValues f).get? key = (m.get? key).map (f key) := Assoc.get?_map f key m.entries

@[simp] theorem get?_filterKeys (p : Text → Bool) (m : OrderedMap α) (key : Text) :
    (m.filterKeys p).get? key = if p key then m.get? key else none :=
  Assoc.get?_filter p key m.entries

theorem keys_filterKeys (p : Text → Bool) (m : OrderedMap α) :
    (m.filterKeys p).keys = m.keys.filter p := by
  simp only [keys, Assoc.keys, filterKeys, List.filter_map]
  rfl

theorem contains_iff (m : OrderedMap α) (key : Text) :
    m.contains key = true ↔ ∃ value, m.get? key = some value := by
  rw [contains, Option.isSome_iff_exists]

theorem not_contains_iff (m : OrderedMap α) (key : Text) :
    m.contains key = false ↔ m.get? key = none := by
  rw [contains, Option.isSome_eq_false_iff, Option.isNone_iff_eq_none]

theorem mem_entries_iff (m : OrderedMap α) (key : Text) (value : α) :
    (key, value) ∈ m.entries ↔ m.get? key = some value :=
  ⟨Assoc.get?_of_mem m.distinct, Assoc.mem_of_get?⟩

theorem eq_of_entries {m m' : OrderedMap α} (h : m.entries = m'.entries) : m = m' := by
  obtain ⟨entries, distinct⟩ := m
  obtain ⟨entries', distinct'⟩ := m'
  cases h
  rfl

/-- A map is made again from its own entries. -/
theorem ofPairs_entries (m : OrderedMap α) : ofPairs m.entries = m := by
  have h : Assoc.insertAll [] m.entries = m.entries :=
    Assoc.insertAll_of_nodup [] m.entries m.distinct
  cases m
  simpa only [ofPairs, mk.injEq] using h

end OrderedMap

end AuthorWatch
