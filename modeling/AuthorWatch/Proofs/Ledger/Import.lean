import AuthorWatch.Proofs.Ledger.Heights

/-! What an accepted import changes. It adds its block at the end of the ledger, or counts one
report more on the record that is there; the sweep after that may finalize any record. All else
stays as it was. -/

namespace AuthorWatch

namespace Record

variable {c d : Record} {x : Reporter} {time ordinal : Int}

/-! ### One report -/

def ordinals (c : Record) : List Int := c.reporters.map Reporter.ordinal

theorem joins_iff : c.joins ordinal time = true ↔ c.lowest = some time ∧ ordinal ∉ c.ordinals := by
  simp only [joins, ordinals, Bool.and_eq_true, decide_eq_true_iff, List.all_eq_true, List.mem_map,
    not_exists, not_and]

/-- The second record is the first with one report more, and may be finalized since. -/
structure Reported (c : Record) (x : Reporter) (time : Int) (d : Record) : Prop where
  height : d.height = c.height
  firstSeen : d.firstSeen = c.firstSeen
  count : d.count = c.count + 1
  /-- Without a lowest time every time is the lowest. -/
  lowest : d.lowest = some (c.lowest.elim time (min · time))
  renewed : (∀ low ∈ c.lowest, time < low) → d.reporters = [x]
  joined : c.lowest = some time → x.ordinal ∉ c.ordinals → d.reporters = c.reporters ++ [x]
  kept : ∀ low ∈ c.lowest, low < time ∨ low = time ∧ x.ordinal ∈ c.ordinals →
    d.reporters = c.reporters
  finalized : c.finalized = true → d.finalized = true

theorem Reported.close (h : c.Reported x time d) : c.Reported x time d.close :=
  ⟨h.height, h.firstSeen, h.count, h.lowest, h.renewed, h.joined, h.kept, fun _ => rfl⟩

theorem reported_observe (c : Record) (x : Reporter) (time : Int) :
    c.Reported x time (c.observe x time) := by
  have hlowest := c.lowest_observe x time
  rcases c.observe_cases x time with ⟨hlow, ho⟩ | ⟨hnot, hjoins, ho⟩ | ⟨hnot, hjoins, ho⟩ <;>
    rw [ho] at hlowest ⊢
  · have hbelow := lowers_iff.mp hlow
    refine ⟨rfl, rfl, rfl, hlowest, fun _ => rfl, fun hsame _ => ?_, fun low hold hle => ?_, id⟩
    · exact absurd (hbelow time hsame) (Int.lt_irrefl _)
    · have hlt := hbelow low hold
      omega
  · obtain ⟨hsame, hnew⟩ := joins_iff.mp hjoins
    refine ⟨rfl, rfl, rfl, hlowest, fun hbelow => ?_, fun _ _ => rfl, fun low hold hle => ?_, id⟩
    · exact absurd (hbelow time hsame) (Int.lt_irrefl _)
    · cases hsame.symm.trans hold
      rcases hle with hlt | ⟨-, hlisted⟩
      · exact absurd hlt (Int.lt_irrefl _)
      · exact absurd hlisted hnew
  · obtain ⟨low, hold, hle⟩ := exists_of_not_lowers hnot
    refine ⟨rfl, rfl, rfl, hlowest, fun hbelow => ?_, fun hsame hnew => ?_, fun _ _ _ => rfl, id⟩
    · have hlt := hbelow low hold
      omega
    · rw [joins_iff.mpr ⟨hsame, hnew⟩] at hjoins
      cases hjoins

theorem nodup_ordinals_observe (h : c.ordinals.Nodup) : (c.observe x time).ordinals.Nodup := by
  rcases c.observe_cases x time with ⟨-, ho⟩ | ⟨-, hjoins, ho⟩ | ⟨-, -, ho⟩ <;> rw [ho]
  · exact List.nodup_singleton _
  · have hnew : x.ordinal ∉ c.ordinals := (joins_iff.mp hjoins).2
    rw [ordinals, List.map_append, List.map_singleton]
    exact List.nodup_append_comm.mp (List.nodup_cons.mpr ⟨hnew, h⟩)
  · exact h

end Record

namespace Ledger

variable {l : Ledger} {hash : Text} {c : Record}

/-! ### The whole ledger -/

/-- A sweep closes a record or leaves it. -/
theorem exists_of_sweep (h : l.get? hash = some c) (policy : Policy) (now : Int) :
    ∃ d, (l.sweep policy now).get? hash = some d ∧ (d = c ∨ d = c.close) := by
  rw [get?_sweep, h, Option.map_some]
  split
  · exact ⟨c.close, rfl, .inr rfl⟩
  · exact ⟨c, rfl, .inl rfl⟩

/-- If every record lists each node once, then so do all after a count and a sweep. -/
theorem nodup_ordinals_sweep (h : ∀ hash c, l.get? hash = some c → c.ordinals.Nodup)
    {registry : Registry} {b : BlockImport} {now : Int} {policy : Policy} {d : Record}
    (hd : ((l.count registry b now).sweep policy now).get? hash = some d) : d.ordinals.Nodup := by
  rw [get?_sweep, Option.map_eq_some_iff] at hd
  obtain ⟨c, hc, rfl⟩ := hd
  have hcounted : c.ordinals.Nodup := by
    refine forall_count (P := fun c => c.ordinals.Nodup) h (fun _ => id) (fun c hbefore => ?_) hc
    rcases hbefore with rfl | hold
    · exact Record.nodup_ordinals_observe List.nodup_nil
    · exact Record.nodup_ordinals_observe hold
  split
  · exact hcounted
  · exact hcounted

/-- An accepted import of a block that is not there adds it last, with one report. An import of a
block that is there leaves its place and counts one report more. Every other record stays as it
is, and each record may be finalized. The registry is left alone, and if each record lists every
node once, then it still does. -/
theorem import_frame (l : Ledger) (registry : Registry) (policy : Policy) {b : BlockImport}
    (hb : accepts b = true) (now : Int) :
    let after := (l.handle registry policy b now).1
    let x := reporterFor registry b now
    (l.get? b.hash = none → after.keys = l.keys ++ [b.hash]
      ∧ ∃ finalized, after.get? b.hash
        = some ⟨b.height, now, some b.propagation, [x], 1, finalized⟩)
    ∧ (∀ c, l.get? b.hash = some c → after.keys = l.keys
      ∧ ∃ d, after.get? b.hash = some d ∧ c.Reported x b.propagation d)
    ∧ (∀ hash c, hash ≠ b.hash → l.get? hash = some c →
      ∃ d, after.get? hash = some d ∧ (d = c ∨ d = c.close))
    ∧ (∀ window, (Tracker.step ⟨registry, l, policy, window⟩ now (.event (.blockImport b))).1
      = ⟨registry, after.enforce window, policy, window⟩)
    ∧ ((∀ hash c, l.get? hash = some c → c.ordinals.Nodup) →
      ∀ hash d, after.get? hash = some d → d.ordinals.Nodup) := by
  intro after x
  have hafter : after = (l.count registry b now).sweep policy now := by
    simp only [after, handle, if_pos hb]
  have hkeys : after.keys = (l.count registry b now).keys := by rw [hafter, keys_sweep]
  have hcounted : (l.count registry b now).get? b.hash
      = some ((l.recordFor b now).observe x b.propagation) := by
    rw [get?_count, if_pos rfl]
  obtain ⟨d, hd, hcases⟩ := exists_of_sweep hcounted policy now
  rw [← hafter] at hd
  refine ⟨fun hnew => ⟨?_, ?_⟩, fun c hold => ⟨?_, d, hd, ?_⟩, fun hash c hne hold => ?_,
    fun window => rfl, fun hdistinct hash d hd => ?_⟩
  · rw [hkeys, keys_count, (l.not_contains_iff _).mpr hnew]
    rfl
  · rw [recordFor, hnew, Option.getD_none] at hcases
    rcases hcases with rfl | rfl
    · exact ⟨false, hd⟩
    · exact ⟨true, hd⟩
  · rw [hkeys, keys_count, (l.contains_iff _).mpr ⟨c, hold⟩]
    rfl
  · rw [recordFor, hold, Option.getD_some] at hcases
    rcases hcases with rfl | rfl
    · exact c.reported_observe x b.propagation
    · exact (c.reported_observe x b.propagation).close
  · rw [hafter]
    refine exists_of_sweep ?_ policy now
    rw [get?_count, if_neg (Ne.symm hne), hold]
  · rw [hafter] at hd
    exact nodup_ordinals_sweep hdistinct hd

/-- A finalized record with a reporter and no lowest time, an open one with a lowest time and no
reporter, and one that has fallen behind. -/
def oddBlocks : Ledger := .ofPairs [("a", ⟨10, 0, none, [⟨1, "n", "i", 0⟩], 4, true⟩),
  ("b", ⟨10, 8, some 5, [], 0, false⟩), ("c", ⟨3, 8, some 5, [⟨1, "n", "i", 8⟩], 1, false⟩)]

/-- The first takes a report as if it were new and stays finalized; the last is finalized by the
sweep. -/
theorem import_frame_of_oddBlocks :
    let policy : Policy := ⟨3, 3, 1⟩
    let after := (oddBlocks.handle .empty policy ⟨2, 20, "a", 7⟩ 9).1
    let x : Reporter := ⟨2, "unknown_node_2", "unknown_id", 9⟩
    accepts ⟨2, 20, "a", 7⟩ = true
    ∧ after.keys = ["a", "b", "c"]
    ∧ (∃ d, after.get? "a" = some d ∧ d.height = 10 ∧ d.count = 5 ∧ d.lowest = some 7
      ∧ d.reporters = [x] ∧ d.finalized = true)
    ∧ after.get? "b" = some ⟨10, 8, some 5, [], 0, false⟩
    ∧ after.get? "c" = some ⟨3, 8, some 5, [⟨1, "n", "i", 8⟩], 1, true⟩
    ∧ ∀ hash d, after.get? hash = some d → d.ordinals.Nodup := by
  intro policy after x
  have haccepts : accepts ⟨2, 20, "a", 7⟩ = true := rfl
  obtain ⟨-, hheld, -, -, hnodup⟩ := import_frame oddBlocks .empty policy haccepts 9
  have hall : ∀ entry ∈ oddBlocks.entries, entry.2.ordinals.Nodup := by decide +kernel
  have hdistinct : ∀ hash c, oddBlocks.get? hash = some c → c.ordinals.Nodup :=
    fun hash c hc => hall (hash, c) (Assoc.mem_of_get? hc)
  have hold : oddBlocks.get? "a" = some ⟨10, 0, none, [⟨1, "n", "i", 0⟩], 4, true⟩ := by
    decide +kernel
  obtain ⟨hkeys, d, hd, hreported⟩ := hheld _ hold
  have hreporters : d.reporters = [x] := (hreported.renewed nofun).trans (by decide +kernel)
  refine ⟨haccepts, hkeys.trans (by decide +kernel), ⟨d, hd, hreported.height, hreported.count,
    hreported.lowest, hreporters, hreported.finalized rfl⟩, ?_, ?_, hnodup hdistinct⟩
  · decide +kernel
  · decide +kernel

end Ledger

end AuthorWatch
