/-! Association lists that keep the order of first insertion. Writing to a key that is
present leaves its place; a new key goes last. -/

namespace AuthorWatch.Assoc

variable {κ α : Type}

def keys (entries : List (κ × α)) : List κ := entries.map Prod.fst

variable [DecidableEq κ]

def get? (key : κ) : List (κ × α) → Option α
  | [] => none
  | (k, v) :: rest => if k = key then some v else get? key rest

def insert (key : κ) (value : α) : List (κ × α) → List (κ × α)
  | [] => [(key, value)]
  | (k, v) :: rest => if k = key then (k, value) :: rest else (k, v) :: insert key value rest

/-- Writes pairs one after another, a later one for the same key replacing the value. -/
def insertAll (entries : List (κ × α)) (pairs : List (κ × α)) : List (κ × α) :=
  pairs.foldl (fun entries pair => insert pair.1 pair.2 entries) entries

theorem keys_insert (key : κ) (value : α) (entries : List (κ × α)) :
    keys (insert key value entries)
      = if key ∈ keys entries then keys entries else keys entries ++ [key] := by
  induction entries with
  | nil => rfl
  | cons entry rest ih =>
    obtain ⟨k, v⟩ := entry
    by_cases hk : k = key
    · subst hk; simp [insert, keys]
    · have hk' : ¬ key = k := fun h => hk h.symm
      simp only [insert, hk, if_false, keys, List.map_cons, List.mem_cons, hk', false_or] at ih ⊢
      rw [ih]
      split <;> rename_i h <;> simp [h]

theorem get?_insert (key other : κ) (value : α) (entries : List (κ × α)) :
    get? other (insert key value entries)
      = if key = other then some value else get? other entries := by
  induction entries with
  | nil => simp [insert, get?]
  | cons entry rest ih =>
    obtain ⟨k, v⟩ := entry
    by_cases hk : k = key
    · subst hk; by_cases ho : k = other <;> simp [insert, get?, ho]
    · by_cases ho : k = other
      · subst ho
        have : ¬ key = k := fun h => hk h.symm
        simp [insert, get?, hk, this]
      · simp [insert, get?, hk, ho, ih]

theorem nodup_keys_insert {key : κ} {value : α} {entries : List (κ × α)}
    (h : (keys entries).Nodup) : (keys (insert key value entries)).Nodup := by
  rw [keys_insert]
  split
  · exact h
  · rename_i hk
    rw [List.nodup_append]
    exact ⟨h, by simp, by
      intro a ha b hb
      rw [List.mem_singleton] at hb
      subst hb
      exact fun hab => hk (hab ▸ ha)⟩

theorem nodup_keys_insertAll {entries pairs : List (κ × α)} (h : (keys entries).Nodup) :
    (keys (insertAll entries pairs)).Nodup := by
  induction pairs generalizing entries with
  | nil => exact h
  | cons pair pairs ih => exact ih (nodup_keys_insert h)

end AuthorWatch.Assoc
