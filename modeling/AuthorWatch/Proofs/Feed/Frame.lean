import AuthorWatch.Feed.Frame
import AuthorWatch.Proofs.Ledger.Savable

/-! What a frame of the feed can bring. Each of its events passed the checks, and its integers
are short enough to be read, since those of the message were. -/

namespace AuthorWatch

open Json (Short)

/-- The checks passed, and every integer is short enough to be read. -/
def Event.Sound (e : Event) : Prop := (Item.event e).Checked ∧ (Item.event e).Fits

theorem Announce.sound_of_check {members : List (Text × Json)} {a : Announce}
    (hm : ∀ member ∈ members, Short member.2) (h : Announce.check members = .passed a) :
    Event.Sound (.announce a) := by
  obtain ⟨member, hmember, hordinal⟩ := Announce.exists_of_check h
  exact ⟨Announce.checked_of_check h, Json.fits_of_integerAtLeast (hm member hmember) hordinal⟩

theorem BlockImport.sound_of_check {members : List (Text × Json)} {b : BlockImport}
    (hm : ∀ member ∈ members, Short member.2) (h : BlockImport.check members = .passed b) :
    Event.Sound (.blockImport b) := by
  obtain ⟨⟨m₁, hm₁, hordinal⟩, ⟨m₂, hm₂, hheight⟩, hpropagation⟩ := BlockImport.exists_of_check h
  refine ⟨BlockImport.checked_of_check h, Json.fits_of_integerAtLeast (hm m₁ hm₁) hordinal,
    Json.fits_of_integerAtLeast (hm m₂ hm₂) hheight, ?_⟩
  rcases hpropagation with hzero | ⟨m₃, hm₃, hpropagation⟩
  · rw [hzero]
    exact Json.fits_of_lt (by decide)
  · exact Json.fits_of_integerAtLeast (hm m₃ hm₃) hpropagation

namespace Action

variable {ordinal : Json} {details : List Json}

theorem short_getD (h : ∀ v ∈ details, Short v) (i : ℕ) : Short (details.getD i .null) := by
  rw [List.getD_eq_getElem?_getD]
  cases hv : details[i]? with
  | none => trivial
  | some v => exact h v (List.mem_of_getElem? hv)

theorem sound_of_announceOf {a : Announce} (ho : Short ordinal)
    (h : announceOf ordinal details = .passed a) : Event.Sound (.announce a) := by
  refine Announce.sound_of_check ?_ h
  simp only [List.forall_mem_cons, List.not_mem_nil, false_imp_iff, implies_true, and_true]
  exact ⟨ho, trivial, trivial⟩

theorem sound_of_importOf {b : BlockImport} (ho : Short ordinal) (hd : ∀ v ∈ details, Short v)
    (h : importOf ordinal details = .passed b) : Event.Sound (.blockImport b) := by
  refine BlockImport.sound_of_check ?_ h
  simp only [List.forall_mem_cons, List.not_mem_nil, false_imp_iff, implies_true, and_true]
  refine ⟨ho, short_getD hd 0, trivial, ?_⟩
  split
  · exact Json.fits_of_lt (by decide)
  · exact short_getD hd 4

theorem short_of_parts {payload : Json} (hp : Short payload)
    (h : parts? payload = some (ordinal, details)) : Short ordinal ∧ ∀ v ∈ details, Short v := by
  unfold parts? at h
  split at h
  next =>
    split at h
    · cases h
    · cases h
      exact ⟨hp.1, Json.shortItems_iff.mp hp.2.1⟩
  next => cases h

theorem sound_of_read {action : Action} {payload : Json} {e : Event} (hp : Short payload)
    (h : action.read? payload = some (.passed e)) : e.Sound := by
  obtain ⟨⟨ordinal, details⟩, hparts, hcheck⟩ := Option.map_eq_some_iff.mp h
  obtain ⟨ho, hd⟩ := short_of_parts hp hparts
  cases action with
  | addedNode =>
    obtain ⟨a, ha, rfl⟩ := Check.map_eq_passed_iff.mp hcheck
    exact sound_of_announceOf ho ha
  | importedBlock =>
    obtain ⟨b, hb, rfl⟩ := Check.map_eq_passed_iff.mp hcheck
    exact sound_of_importOf ho hd hb

end Action

namespace Frame

theorem mem_of_mem_pairs {items : List Json} {pair : Pair} (h : pair ∈ pairs items) :
    pair.2 ∈ items := by
  fun_induction pairs items with
  | case1 action payload rest ih =>
    rcases List.mem_cons.mp h with rfl | h
    · simp
    · exact List.mem_cons_of_mem _ (List.mem_cons_of_mem _ (ih h))
  | case2 => cases h

theorem sound_of_event {pair : Pair} {e : Event} (hp : Short pair.2) (h : event pair = .ok e) :
    e.Sound := by
  unfold event at h
  split at h
  · cases h
  · split at h
    · cases h
    · cases h
    next heq =>
      cases h
      exact Action.sound_of_read hp heq

theorem sound_of_ofText {t : Text} : ∀ e ∈ (ofText t).events, e.Sound := by
  intro e he
  unfold ofText at he
  split at he
  · cases he
  next items hread =>
    have hshort : ∀ v ∈ items, Short v := Json.shortItems_iff.mp (Json.short_of_read hread)
    obtain ⟨pair, hpair, hevent⟩ := List.mem_filterMap.mp he
    refine sound_of_event (hshort _ (mem_of_mem_pairs hpair)) (?_ : event pair = .ok e)
    cases hresult : event pair with
    | error notice => rw [hresult] at hevent; cases hevent
    | ok found => rw [hresult] at hevent; cases hevent; rfl
  · cases he

/-- Every event of a message passed the checks, and its integers are short. -/
theorem sound_of_ofMessage (message : Message) : ∀ e ∈ (ofMessage message).events, e.Sound := by
  cases message with
  | text t => exact sound_of_ofText
  | binary bytes =>
    intro e he
    unfold ofMessage at he
    dsimp only at he
    split at he
    · cases he
    next t _ => exact sound_of_ofText e he

end Frame

end AuthorWatch
