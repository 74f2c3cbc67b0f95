import AuthorWatch.Assoc
import AuthorWatch.Text.Basic

/-! Maps from texts that keep the order of first insertion. -/

namespace AuthorWatch

/-- Entries in order of first insertion, one for each key. -/
structure OrderedMap (α : Type) where
  entries : List (Text × α)
  distinct : (Assoc.keys entries).Nodup
  deriving DecidableEq

namespace OrderedMap

variable {α β : Type}

def empty : OrderedMap α := ⟨[], by simp [Assoc.keys]⟩

instance : Inhabited (OrderedMap α) := ⟨empty⟩

def size (m : OrderedMap α) : Nat := m.entries.length

def keys (m : OrderedMap α) : List Text := Assoc.keys m.entries

def get? (m : OrderedMap α) (key : Text) : Option α := Assoc.get? key m.entries

def contains (m : OrderedMap α) (key : Text) : Bool := (m.get? key).isSome

def insert (m : OrderedMap α) (key : Text) (value : α) : OrderedMap α :=
  ⟨Assoc.insert key value m.entries, Assoc.nodup_keys_insert m.distinct⟩

/-- Pairs inserted one after another. -/
def ofPairs (pairs : List (Text × α)) : OrderedMap α :=
  ⟨Assoc.insertAll [] pairs, Assoc.nodup_keys_insertAll (by simp [Assoc.keys])⟩

/-- Changes values and keeps keys and places. -/
def mapValues (f : Text → α → β) (m : OrderedMap α) : OrderedMap β :=
  ⟨m.entries.map fun (k, v) => (k, f k v), by
    have : Assoc.keys (m.entries.map fun (k, v) => (k, f k v)) = Assoc.keys m.entries := by
      simp [Assoc.keys, Function.comp_def]
    rw [this]; exact m.distinct⟩

/-- The entries whose key passes a test, in their order. -/
def filterKeys (p : Text → Bool) (m : OrderedMap α) : OrderedMap α :=
  ⟨m.entries.filter fun entry => p entry.1, by
    have : (Assoc.keys (m.entries.filter fun entry => p entry.1)).Sublist (Assoc.keys m.entries) :=
      List.filter_sublist.map Prod.fst
    exact this.nodup m.distinct⟩

def erase (m : OrderedMap α) (key : Text) : OrderedMap α := m.filterKeys fun k => k ≠ key

end OrderedMap

end AuthorWatch
