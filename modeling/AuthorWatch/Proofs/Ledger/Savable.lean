import AuthorWatch.Proofs.Json.Integers
import AuthorWatch.Proofs.Json.Writing
import AuthorWatch.Proofs.Ledger.Sound
import AuthorWatch.Proofs.Recorder.Visit

/-! States that can be saved and loaded again: every text has an encoding, every record would
pass the checks of loading, and every integer is short enough to be read. Items of that kind
keep to such states; a count grows by one with each import, and nothing else grows. -/

namespace AuthorWatch

/-! ### What can be saved -/

def Node.Encodable (n : Node) : Prop := n.name.encodable = true ∧ n.nodeId.encodable = true

def Reporter.Encodable (x : Reporter) : Prop := x.name.encodable = true ∧ x.nodeId.encodable = true

structure Record.Savable (c : Record) : Prop where
  sound : c.Sound
  fits : c.Fits
  encodable : ∀ x ∈ c.reporters, x.Encodable

def Registry.Savable (r : Registry) : Prop :=
  ∀ entry ∈ r.entries, entry.1.encodable = true ∧ entry.2.Encodable

def Ledger.Savable (l : Ledger) : Prop :=
  ∀ entry ∈ l.entries, entry.1.encodable = true ∧ entry.2.Savable

namespace Item

/-- No text of an item holds a lone surrogate. -/
def Encodable : Item → Prop
  | .event (.announce a) => a.name.encodable = true ∧ a.nodeId.encodable = true
  | .event (.blockImport b) => b.hash.encodable = true
  | .foreign => True

instance : DecidablePred Encodable
  | .event (.announce _) => inferInstanceAs (Decidable (_ ∧ _))
  | .event (.blockImport _) => inferInstanceAs (Decidable (_ = _))
  | .foreign => .isTrue trivial

/-- Every integer of an item is short enough to be read. -/
def Fits : Item → Prop
  | .event (.announce a) => Json.Fits a.ordinal
  | .event (.blockImport b) => Json.Fits b.ordinal ∧ Json.Fits b.height ∧ Json.Fits b.propagation
  | .foreign => True

/-- An item that passed its checks and leaves a state that can be saved. -/
structure Savable (item : Item) : Prop where
  checked : item.Checked
  fits : item.Fits
  encodable : item.Encodable

end Item

/-! ### Texts -/

namespace Registry

theorem encodable_keyOf (ordinal : Int) : (keyOf ordinal).encodable = true :=
  (Json.ascii_ofInt ordinal).encodable

theorem encodable_resolve {r : Registry} (h : r.Savable) (ordinal : Int) :
    (r.resolve (keyOf ordinal)).Encodable := by
  rw [resolve]
  cases hn : r.get? (keyOf ordinal) with
  | none =>
    refine ⟨?_, rfl⟩
    rw [Option.getD_none, unknownNode, Text.encodable_append, encodable_keyOf]
    rfl
  | some n => exact (h (keyOf ordinal, n) ((r.mem_entries_iff _ n).mpr hn)).2

end Registry

/-! ### Records -/

namespace Record

variable {n : ℕ} {c : Record}

/-- A record that can be saved as long as the number of imports can. -/
structure Grown (n : ℕ) (c : Record) : Prop where
  sound : c.Sound
  count : c.count ≤ n
  height : Json.Fits c.height
  firstSeen : Json.Fits c.firstSeen
  lowest : ∀ time ∈ c.lowest, Json.Fits time
  reporters : ∀ x ∈ c.reporters, x.Encodable ∧ Json.Fits x.ordinal ∧ Json.Fits x.seen

theorem Grown.savable (h : c.Grown n) (hn : Json.Fits n) : c.Savable where
  sound := h.sound
  fits := by
    have hcount : Json.Fits c.count := by
      have hpos := h.sound.count
      have hle := h.count
      exact Json.fits_of_le hn (by omega)
    exact ⟨h.height, h.firstSeen, h.lowest, hcount, fun x hx => (h.reporters x hx).2⟩
  encodable := fun x hx => (h.reporters x hx).1

theorem Grown.succ (h : c.Grown n) : c.Grown (n + 1) :=
  ⟨h.sound, by have := h.count; omega, h.height, h.firstSeen, h.lowest, h.reporters⟩

theorem Grown.close (h : c.Grown n) : c.close.Grown n :=
  ⟨sound_close h.sound, h.count, h.height, h.firstSeen, h.lowest, h.reporters⟩

theorem grown_fresh {height firstSeen : Int} (hpos : 0 ≤ height) (hh : Json.Fits height)
    (hf : Json.Fits firstSeen) (n : ℕ) : (fresh height firstSeen).Grown n :=
  ⟨sound_fresh hpos firstSeen, Int.natCast_nonneg n, hh, hf, nofun, nofun⟩

theorem Grown.observe (h : c.Grown n) {reporter : Reporter} {time : Int} (hs : reporter.Sound)
    (hr : reporter.Encodable ∧ Json.Fits reporter.ordinal ∧ Json.Fits reporter.seen)
    (ht : Json.Fits time) :
    (c.observe reporter time).Grown (n + 1) := by
  have hsound := sound_observe h.sound hs time
  have hcount : c.count + 1 ≤ (n + 1 : ℕ) := by have := h.count; omega
  rcases c.observe_cases reporter time with ⟨-, ho⟩ | ⟨-, -, ho⟩ | ⟨-, -, ho⟩ <;>
    rw [ho] at hsound ⊢
  · refine ⟨hsound, hcount, h.height, h.firstSeen, ?_, ?_⟩
    · intro low hlow
      cases hlow
      exact ht
    · intro x hx
      cases List.mem_singleton.mp hx
      exact hr
  · refine ⟨hsound, hcount, h.height, h.firstSeen, h.lowest, fun x hx => ?_⟩
    rcases List.mem_append.mp hx with hx | hx
    · exact h.reporters x hx
    · cases List.mem_singleton.mp hx
      exact hr
  · exact ⟨hsound, hcount, h.height, h.firstSeen, h.lowest, h.reporters⟩

end Record

/-! ### Items -/

namespace Tracker

variable {t : Tracker} {now : Int} {item : Item} {n : ℕ}

/-- A state that can be saved as long as the number of items can. -/
structure Grown (n : ℕ) (t : Tracker) : Prop where
  registry : t.registry.Savable
  hashes : ∀ hash c, t.ledger.get? hash = some c → hash.encodable = true
  records : ∀ hash c, t.ledger.get? hash = some c → c.Grown n

theorem registry_step (h : t.registry.Savable) (hi : item.Savable) :
    (t.step now item).1.registry.Savable := by
  cases item with
  | foreign => exact h
  | event e =>
    cases e with
    | blockImport b => exact h
    | announce a =>
      intro entry hentry
      rcases Assoc.mem_of_mem_insert hentry with hold | rfl
      · exact h entry hold
      · exact ⟨Registry.encodable_keyOf a.ordinal, hi.encodable⟩

theorem Grown.step (h : t.Grown n) (hi : item.Savable) (hnow : Json.Fits now) :
    (t.step now item).1.Grown (n + 1) where
  registry := registry_step h.registry hi
  hashes := by
    intro hash c hc
    rcases known_of_step hc with ⟨d, hd⟩ | ⟨b, rfl, rfl⟩
    · exact h.hashes hash d hd
    · exact hi.encodable
  records := by
    intro hash c hc
    refine forall_step h.records (fun _ hold => hold.succ) ?_ (fun _ hd => hd.close) hc
    rintro b d rfl hd
    have hgrown : d.Grown n := by
      rcases hd with rfl | hd
      · exact Record.grown_fresh hi.checked.2.1 hi.fits.2.1 hnow n
      · exact hd
    exact hgrown.observe hi.checked.1
      ⟨Registry.encodable_resolve h.registry b.ordinal, hi.fits.1, hnow⟩ hi.fits.2.2

theorem grown_of_savable (hr : t.registry.Savable) (hl : t.ledger.Savable)
    (hcount : ∀ entry ∈ t.ledger.entries, entry.2.count ≤ n) : t.Grown n where
  registry := hr
  hashes := fun hash c hc => (hl (hash, c) ((t.ledger.mem_entries_iff hash c).mpr hc)).1
  records := by
    intro hash c hc
    have hentry := (t.ledger.mem_entries_iff hash c).mpr hc
    obtain ⟨-, hsound, hfits, hencodable⟩ := hl (hash, c) hentry
    exact ⟨hsound, hcount (hash, c) hentry, hfits.height, hfits.firstSeen, hfits.lowest,
      fun x hx => ⟨hencodable x hx, hfits.reporters x hx⟩⟩

theorem Grown.savable (h : t.Grown n) (hn : Json.Fits n) :
    t.registry.Savable ∧ t.ledger.Savable := by
  refine ⟨h.registry, ?_⟩
  rintro ⟨hash, c⟩ hentry
  have hc := (t.ledger.mem_entries_iff hash c).mp hentry
  exact ⟨h.hashes hash c hc, (h.records hash c hc).savable hn⟩

theorem Grown.after (h : t.Grown n) {arrivals : List Arrival}
    (ha : ∀ a ∈ arrivals, a.item.Savable ∧ Json.Fits a.now) :
    (t.after arrivals).Grown (n + arrivals.length) := by
  induction arrivals generalizing t n with
  | nil => exact h
  | cons a arrivals ih =>
    obtain ⟨⟨hi, hnow⟩, hrest⟩ := List.forall_mem_cons.mp ha
    rw [List.length_cons, Nat.add_comm arrivals.length 1, ← Nat.add_assoc]
    exact ih (h.step hi hnow) hrest

end Tracker

/-- Items that can be saved leave states that can be saved, whatever files they find. -/
theorem Recorder.savable_after {r : Recorder} {visits : List Visit} {n : ℕ}
    (hr : r.tracker.registry.Savable) (hl : r.tracker.ledger.Savable)
    (hcount : ∀ entry ∈ r.tracker.ledger.entries, entry.2.count ≤ n)
    (hv : ∀ v ∈ visits, v.arrival.item.Savable ∧ Json.Fits v.arrival.now)
    (hn : Json.Fits (n + visits.length : ℕ)) :
    (r.after visits).tracker.registry.Savable ∧ (r.after visits).tracker.ledger.Savable := by
  have hgrown := (Tracker.grown_of_savable hr hl hcount).after (List.forall_mem_map.mpr hv)
  rw [List.length_map] at hgrown
  rw [r.tracker_after]
  exact hgrown.savable hn

end AuthorWatch
