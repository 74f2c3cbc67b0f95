import AuthorWatch.Proofs.Ledger.Step
import AuthorWatch.Proofs.Snapshot.Document

/-! Items that passed their checks keep every record such that loading would accept it. -/

namespace AuthorWatch

/-- What the checks of events promise of an item. -/
def Item.Checked : Item → Prop
  | .event (.announce a) => 0 ≤ a.ordinal
  | .event (.blockImport b) => 0 ≤ b.ordinal ∧ 0 ≤ b.height ∧ 0 ≤ b.propagation
  | .foreign => True

instance : DecidablePred Item.Checked
  | .event (.announce _) => inferInstanceAs (Decidable (_ ≤ _))
  | .event (.blockImport _) => inferInstanceAs (Decidable (_ ∧ _ ∧ _))
  | .foreign => .isTrue trivial

/-- Where the integer of an announcement comes from. -/
theorem Announce.exists_of_check {members : List (Text × Json)} {a : Announce}
    (h : Announce.check members = .passed a) :
    ∃ member ∈ members, Check.integerAtLeast 0 member.2 = .passed a.ordinal := by
  obtain ⟨_, nodeId, h₂, -, rfl⟩ := Check.seq_eq_passed_iff.mp h
  obtain ⟨_, name, h₁, -, rfl⟩ := Check.seq_eq_passed_iff.mp h₂
  obtain ⟨ordinal, hordinal, rfl⟩ := Check.map_eq_passed_iff.mp h₁
  exact Check.exists_mem_of_required hordinal

/-- Where the integers of an import come from. -/
theorem BlockImport.exists_of_check {members : List (Text × Json)} {b : BlockImport}
    (h : BlockImport.check members = .passed b) :
    (∃ member ∈ members, Check.integerAtLeast 0 member.2 = .passed b.ordinal)
    ∧ (∃ member ∈ members, Check.integerAtLeast 0 member.2 = .passed b.height)
    ∧ (b.propagation = 0
      ∨ ∃ member ∈ members, Check.integerAtLeast 0 member.2 = .passed b.propagation) := by
  obtain ⟨_, propagation, h₃, hpropagation, rfl⟩ := Check.seq_eq_passed_iff.mp h
  obtain ⟨_, hash, h₂, -, rfl⟩ := Check.seq_eq_passed_iff.mp h₃
  obtain ⟨_, height, h₁, hheight, rfl⟩ := Check.seq_eq_passed_iff.mp h₂
  obtain ⟨ordinal, hordinal, rfl⟩ := Check.map_eq_passed_iff.mp h₁
  exact ⟨Check.exists_mem_of_required hordinal, Check.exists_mem_of_required hheight,
    Check.exists_mem_of_optional hpropagation⟩

theorem Announce.checked_of_check {members : List (Text × Json)} {a : Announce}
    (h : Announce.check members = .passed a) : Item.Checked (.event (.announce a)) := by
  obtain ⟨member, -, hordinal⟩ := Announce.exists_of_check h
  exact Check.le_of_integerAtLeast hordinal

theorem BlockImport.checked_of_check {members : List (Text × Json)} {b : BlockImport}
    (h : BlockImport.check members = .passed b) : Item.Checked (.event (.blockImport b)) := by
  obtain ⟨⟨_, -, hordinal⟩, ⟨_, -, hheight⟩, hpropagation⟩ := BlockImport.exists_of_check h
  refine ⟨Check.le_of_integerAtLeast hordinal, Check.le_of_integerAtLeast hheight, ?_⟩
  rcases hpropagation with hzero | ⟨_, -, hpropagation⟩
  · exact Int.le_of_eq hzero.symm
  · exact Check.le_of_integerAtLeast hpropagation

namespace Record

theorem sound_fresh {height : Int} (h : 0 ≤ height) (firstSeen : Int) :
    (fresh height firstSeen).Sound := ⟨h, Int.le_refl 0, fun _ hx => absurd hx List.not_mem_nil⟩

theorem sound_observe {r : Record} (h : r.Sound) {reporter : Reporter} (hr : reporter.Sound)
    (time : Int) : (r.observe reporter time).Sound := by
  have hcount : 0 ≤ r.count + 1 := Int.le_add_one h.count
  rcases r.observe_cases reporter time with ⟨-, ho⟩ | ⟨-, -, ho⟩ | ⟨-, -, ho⟩ <;> rw [ho]
  · exact ⟨h.height, hcount, fun x hx => List.mem_singleton.mp hx ▸ hr⟩
  · refine ⟨h.height, hcount, fun x hx => ?_⟩
    rcases List.mem_append.mp hx with hx | hx
    · exact h.reporters x hx
    · exact List.mem_singleton.mp hx ▸ hr
  · exact ⟨h.height, hcount, h.reporters⟩

theorem sound_close {r : Record} (h : r.Sound) : r.close.Sound := ⟨h.height, h.count, h.reporters⟩

end Record

namespace Tracker

variable {t : Tracker} {now : Int} {item : Item}

theorem sound_step (hold : ∀ entry ∈ t.ledger.entries, entry.2.Sound) (hi : item.Checked) :
    ∀ entry ∈ (t.step now item).1.ledger.entries, entry.2.Sound := by
  rintro ⟨hash, c⟩ hentry
  have hc := ((t.step now item).1.ledger.mem_entries_iff hash c).mp hentry
  refine forall_step (P := Record.Sound) ?_ (fun _ h => h) ?_ (fun _ => Record.sound_close) hc
  · intro hash c hc
    exact hold (hash, c) ((t.ledger.mem_entries_iff hash c).mpr hc)
  · rintro b c rfl hbefore
    have hreporter : (Ledger.reporterFor t.registry b now).Sound := hi.1
    refine Record.sound_observe ?_ hreporter _
    rcases hbefore with rfl | hsound
    · exact Record.sound_fresh hi.2.1 now
    · exact hsound

end Tracker

end AuthorWatch
