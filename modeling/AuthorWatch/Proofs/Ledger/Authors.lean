import AuthorWatch.Proofs.Ledger.History
import AuthorWatch.Proofs.Ledger.Import
import Mathlib.Data.List.Induction

/-! The likely authors of a block are the nodes that reported it at the lowest time. They are read
off the reports as a whole, so the order of the reports does not matter; and what a node reports
again at a higher time takes nothing back. -/

namespace AuthorWatch

namespace Record

variable {c : Record} {x : Reporter} {time low ordinal : Int}

/-! ### Many reports -/

/-- Counts reports one after another, each with its propagation time. -/
def observeAll (c : Record) (reports : List (Reporter × Int)) : Record :=
  reports.foldl (fun c report => c.observe report.1 report.2) c

theorem observeAll_cons (c : Record) (report : Reporter × Int) (reports : List (Reporter × Int)) :
    c.observeAll (report :: reports) = (c.observe report.1 report.2).observeAll reports := rfl

theorem observeAll_concat (c : Record) (reports : List (Reporter × Int)) (report : Reporter × Int) :
    c.observeAll (reports ++ [report]) = (c.observeAll reports).observe report.1 report.2 := by
  rw [observeAll, List.foldl_append]
  rfl

theorem count_observe (c : Record) (x : Reporter) (time : Int) :
    (c.observe x time).count = c.count + 1 := (c.reported_observe x time).count

theorem count_observeAll (c : Record) (reports : List (Reporter × Int)) :
    (c.observeAll reports).count = c.count + reports.length := by
  induction reports generalizing c with
  | nil => simp [observeAll]
  | cons report reports ih =>
    rw [observeAll_cons, ih, count_observe, List.length_cons]
    omega

/-- The lowest of the time that a record had and the times reported. -/
theorem lowest_observeAll (c : Record) (reports : List (Reporter × Int)) :
    (c.observeAll reports).lowest = (c.lowest.toList ++ reports.map Prod.snd).min? := by
  induction reports generalizing c with
  | nil => cases hlow : c.lowest <;> simp [observeAll, hlow]
  | cons report reports ih =>
    rw [observeAll_cons, ih, lowest_observe]
    cases c.lowest with
    | none => rfl
    | some low =>
      simp only [Option.elim_some, Option.toList_some, List.cons_append, List.nil_append,
        List.map_cons, List.min?_cons', List.foldl_cons]

/-- More reports only lower the lowest time. -/
theorem exists_lowest_le (h : c.lowest = some low) (reports : List (Reporter × Int)) :
    ∃ final, (c.observeAll reports).lowest = some final ∧ final ≤ low := by
  rw [lowest_observeAll, h]
  obtain ⟨final, hfinal⟩ := Option.isSome_iff_exists.mp
    (List.isSome_min?_iff.mpr (List.append_ne_nil_of_left_ne_nil (List.cons_ne_nil low []) _))
  exact ⟨final, hfinal, (List.min?_eq_some_iff.mp hfinal).2 low (List.mem_cons_self ..)⟩

/-- After a report a node is listed if it reported the time that is now the lowest, or was listed
at that time before. -/
theorem mem_ordinals_observe (c : Record) (x : Reporter) (time ordinal : Int) :
    ordinal ∈ (c.observe x time).ordinals
      ↔ x.ordinal = ordinal ∧ (c.observe x time).lowest = some time
        ∨ (c.observe x time).lowest = c.lowest ∧ ordinal ∈ c.ordinals := by
  rcases c.observe_cases x time with ⟨hlow, ho⟩ | ⟨-, hjoins, ho⟩ | ⟨hnot, hjoins, ho⟩ <;> rw [ho]
  · have hne : ¬ some time = c.lowest := fun hsame =>
      absurd (lowers_iff.mp hlow time hsame.symm) (Int.lt_irrefl _)
    simp [ordinals, hne, eq_comm]
  · simp [ordinals, (joins_iff.mp hjoins).1, or_comm, eq_comm]
  · have hlisted : c.lowest = some time → x.ordinal ∈ c.ordinals := fun hsame => by
      by_contra hnew
      rw [joins_iff.mpr ⟨hsame, hnew⟩] at hjoins
      cases hjoins
    constructor
    · exact fun h => .inr ⟨rfl, h⟩
    · rintro (⟨rfl, hsame⟩ | ⟨-, h⟩)
      · exact hlisted hsame
      · exact h

/-- After any reports the nodes listed are those that reported the time that is then the lowest,
and those listed from the beginning if that time is still the lowest. -/
theorem mem_ordinals_observeAll (c : Record) (reports : List (Reporter × Int)) (ordinal : Int) :
    ordinal ∈ (c.observeAll reports).ordinals
      ↔ (∃ report ∈ reports, report.1.ordinal = ordinal
          ∧ (c.observeAll reports).lowest = some report.2)
        ∨ (c.observeAll reports).lowest = c.lowest ∧ ordinal ∈ c.ordinals := by
  induction reports generalizing c with
  | nil => simp [observeAll]
  | cons report reports ih =>
    obtain ⟨x, time⟩ := report
    rw [observeAll_cons, ih, mem_ordinals_observe]
    have hmid := c.lowest_observe x time
    obtain ⟨final, hfinal, hle⟩ := exists_lowest_le hmid reports
    -- a time that is the lowest in the end has been so since it was first reported
    have hnew : some final = (c.observe x time).lowest ∧ (c.observe x time).lowest = some time
        ↔ some final = some time := by
      rw [hmid]
      cases hlow : c.lowest with
      | none => simp
      | some low =>
        simp only [hlow, Option.elim_some, Option.some.injEq] at hle ⊢
        omega
    have hold : some final = (c.observe x time).lowest ∧ (c.observe x time).lowest = c.lowest
        ↔ some final = c.lowest := by
      rw [hmid]
      cases hlow : c.lowest with
      | none => simp
      | some low =>
        simp only [hlow, Option.elim_some, Option.some.injEq] at hle ⊢
        omega
    rw [hfinal, List.exists_mem_cons_iff, ← hnew, ← hold]
    simp only [and_or_left, and_assoc, and_left_comm, or_assoc, or_left_comm]

/-! ### The order of reports -/

theorem min?_eq_of_perm {times others : List Int} (h : times.Perm others) :
    times.min? = others.min? := by
  ext low
  simp only [List.min?_eq_some_iff, h.mem_iff]

/-- In whatever order the same reports arrive, they lead to the same count, the same lowest time
and the same nodes listed at it. -/
theorem authors_of_perm (c : Record) {reports others : List (Reporter × Int)}
    (h : reports.Perm others) :
    let d := c.observeAll reports
    let e := c.observeAll others
    (d.count = e.count ∧ d.lowest = e.lowest ∧ ∀ ordinal, ordinal ∈ d.ordinals ↔ ordinal ∈ e.ordinals)
    ∧ d.count = c.count + reports.length
    ∧ d.lowest = (c.lowest.toList ++ reports.map Prod.snd).min?
    ∧ ∀ ordinal, ordinal ∈ d.ordinals
      ↔ (∃ report ∈ reports, report.1.ordinal = ordinal ∧ d.lowest = some report.2)
        ∨ d.lowest = c.lowest ∧ ordinal ∈ c.ordinals := by
  intro d e
  have hlowest : (c.observeAll reports).lowest = (c.observeAll others).lowest := by
    rw [lowest_observeAll, lowest_observeAll]
    exact min?_eq_of_perm ((h.map Prod.snd).append_left c.lowest.toList)
  refine ⟨⟨?_, hlowest, fun ordinal => ?_⟩, c.count_observeAll reports, c.lowest_observeAll reports,
    c.mem_ordinals_observeAll reports⟩
  · rw [count_observeAll, count_observeAll, h.length_eq]
  · rw [mem_ordinals_observeAll, mem_ordinals_observeAll, hlowest]
    simp only [h.mem_iff]

/-- A restored record with one node at its lowest time. -/
def oneAuthor : Record := ⟨10, 0, some 40, [⟨1, "n1", "i1", 0⟩], 1, false⟩

/-- One node ties, another lowers the time, and both report that time once more. -/
def fourReports : List (Reporter × Int) :=
  [(⟨2, "n2", "i2", 1⟩, 40), (⟨3, "n3", "i3", 2⟩, 30), (⟨2, "n2", "i2", 3⟩, 30),
    (⟨1, "n1", "i1", 4⟩, 35)]

/-- Both orders end with the same two nodes, which one of them lists the other way round. -/
theorem authors_of_fourReports : fourReports.Perm fourReports.reverse
    ∧ (oneAuthor.observeAll fourReports).ordinals = [3, 2]
    ∧ (oneAuthor.observeAll fourReports.reverse).ordinals = [2, 3]
    ∧ (oneAuthor.observeAll fourReports.reverse).count = 5
    ∧ (oneAuthor.observeAll fourReports.reverse).lowest = some 30
    ∧ ∀ ordinal, ordinal ∈ (oneAuthor.observeAll fourReports).ordinals
      ↔ ordinal ∈ (oneAuthor.observeAll fourReports.reverse).ordinals := by
  have hperm : fourReports.Perm fourReports.reverse := (List.reverse_perm _).symm
  obtain ⟨⟨hcount, hlowest, hlisted⟩, hreports, hmin, -⟩ := authors_of_perm oneAuthor hperm
  exact ⟨hperm, rfl, rfl, hcount.symm.trans hreports, hlowest.symm.trans hmin, hlisted⟩

end Record

namespace Ledger

/-! ### Reports of a ledger -/

/-- What is asked of a ledger that evicts nothing. Names may change from one import to the next. -/
inductive Call where
  | handle (registry : Registry) (b : BlockImport) (now : Int)
  | sweep (now : Int)

/-- The report of a hash that an accepted import makes. -/
def Call.report? (hash : Text) : Call → Option (Reporter × Int)
  | handle registry b now =>
    if accepts b ∧ b.hash = hash then some (reporterFor registry b now, b.propagation) else none
  | sweep _ => none

def after (l : Ledger) (policy : Policy) : Call → Ledger
  | .handle registry b now => (l.handle registry policy b now).1
  | .sweep now => l.sweep policy now

/-- The state that calls lead to from the empty ledger. -/
def afterAll (policy : Policy) (calls : List Call) : Ledger :=
  calls.foldl (fun l c => l.after policy c) .empty

/-- The reports of a hash, in order. Nothing is evicted, so its record exists since the first. -/
def reportsOf (hash : Text) (calls : List Call) : List (Reporter × Int) :=
  calls.filterMap (Call.report? hash)

/-- The times at which a node reported a hash, in order. -/
def timesOf (hash : Text) (ordinal : Int) (calls : List Call) : List Int :=
  ((reportsOf hash calls).filter fun report => report.1.ordinal = ordinal).map Prod.snd

variable {policy : Policy} {calls : List Call} {hash : Text} {c : Record}

theorem get?_sweep_reopened (l : Ledger) (policy : Policy) (now : Int) (hash : Text) :
    ((l.sweep policy now).get? hash).map Record.reopened = (l.get? hash).map Record.reopened := by
  cases hc : l.get? hash with
  | none => rw [get?_sweep, hc, Option.map_none]
  | some c =>
    obtain ⟨d, hd, hcases⟩ := exists_of_sweep hc policy now
    rw [hd]
    rcases hcases with rfl | rfl
    · rfl
    · exact congrArg some c.reopened_close

/-- A call counts the report that it makes of a hash, if it makes one. -/
theorem get?_after (l : Ledger) (policy : Policy) (call : Call) (hash : Text) :
    ∃ height firstSeen, ((l.after policy call).get? hash).map Record.reopened
      = (call.report? hash).elim ((l.get? hash).map Record.reopened) fun report =>
          some ((((l.get? hash).map Record.reopened).getD (.fresh height firstSeen)).observe
            report.1 report.2) := by
  cases call with
  | sweep now => exact ⟨0, 0, l.get?_sweep_reopened policy now hash⟩
  | handle registry b now =>
    refine ⟨b.height, now, ?_⟩
    by_cases hb : accepts b = true
    · have hafter : l.after policy (.handle registry b now)
          = (l.count registry b now).sweep policy now := by simp [after, handle, hb]
      rw [hafter, get?_sweep_reopened, get?_count, Call.report?]
      by_cases hh : b.hash = hash
      · subst hh
        rw [if_pos rfl, if_pos ⟨hb, rfl⟩, Option.map_some, Record.reopened_observe, recordFor]
        cases l.get? b.hash <;> rfl
      · rw [if_neg hh, if_neg fun h => hh h.2]
        rfl
    · have hafter : l.after policy (.handle registry b now) = l := by simp [after, handle, hb]
      rw [hafter, Call.report?, if_neg fun h => hb h.1]
      rfl

/-- The record of a hash is the one that its reports amount to, and there is none without them. -/
theorem get?_afterAll (policy : Policy) (calls : List Call) (hash : Text) :
    ∃ height firstSeen, ((afterAll policy calls).get? hash).map Record.reopened
      = (reportsOf hash calls).head?.map fun _ =>
          (Record.fresh height firstSeen).observeAll (reportsOf hash calls) := by
  induction calls using List.reverseRecOn with
  | nil => exact ⟨0, 0, rfl⟩
  | append_singleton calls call ih =>
    obtain ⟨height, firstSeen, ih⟩ := ih
    obtain ⟨height', firstSeen', hstep⟩ := (afterAll policy calls).get?_after policy call hash
    have hafter : afterAll policy (calls ++ [call]) = (afterAll policy calls).after policy call := by
      rw [afterAll, List.foldl_append]
      rfl
    have hreports : reportsOf hash (calls ++ [call])
        = reportsOf hash calls ++ (call.report? hash).toList := by
      rw [reportsOf, List.filterMap_append]
      cases hreport : call.report? hash <;> simp [reportsOf, hreport]
    rw [hafter, hreports, hstep, ih]
    cases hreport : call.report? hash with
    | none => exact ⟨height, firstSeen, by simp⟩
    | some report =>
      cases hall : reportsOf hash calls with
      | nil => exact ⟨height', firstSeen', rfl⟩
      | cons first more =>
        refine ⟨height, firstSeen, ?_⟩
        rw [Option.toList_some, Record.observeAll_concat]
        rfl

/-- A node has this as the lowest of its times if it reported the time and no report is below. -/
theorem min?_timesOf_iff {low ordinal : Int} (h : ∀ report ∈ reportsOf hash calls, low ≤ report.2) :
    (timesOf hash ordinal calls).min? = some low
      ↔ ∃ report ∈ reportsOf hash calls, report.1.ordinal = ordinal ∧ some low = some report.2 := by
  have hle : ∀ time ∈ timesOf hash ordinal calls, low ≤ time :=
    List.forall_mem_map.mpr fun report hreport => h report (List.mem_filter.mp hreport).1
  rw [List.min?_eq_some_iff, and_iff_left hle]
  simp only [timesOf, List.mem_map, List.mem_filter, decide_eq_true_eq, Option.some.injEq,
    and_assoc, eq_comm (a := low)]

/-- The nodes listed for a block are those whose lowest report of it is at the lowest time of the
record. The latest report of such a node is at that time too, unless it is above an earlier one. -/
theorem listed_iff_lowest (hc : (afterAll policy calls).get? hash = some c) :
    ∃ low, c.lowest = some low
      ∧ (∀ ordinal, ordinal ∈ c.ordinals ↔ (timesOf hash ordinal calls).min? = some low)
      ∧ ∀ x ∈ c.reporters, ∃ last, (timesOf hash x.ordinal calls).getLast? = some last
        ∧ (last = low ∨ ∃ earlier ∈ timesOf hash x.ordinal calls, earlier < last) := by
  obtain ⟨height, firstSeen, hrecord⟩ := get?_afterAll policy calls hash
  rw [hc, Option.map_some, eq_comm, Option.map_eq_some_iff] at hrecord
  obtain ⟨first, hfirst, hrecord⟩ := hrecord
  have hlowest : c.lowest = ((reportsOf hash calls).map Prod.snd).min? := by
    change c.reopened.lowest = _
    rw [← hrecord, Record.lowest_observeAll]
    rfl
  obtain ⟨low, hlow⟩ : ∃ low, ((reportsOf hash calls).map Prod.snd).min? = some low := by
    refine Option.isSome_iff_exists.mp (List.isSome_min?_iff.mpr fun hnil => ?_)
    rw [List.map_eq_nil_iff.mp hnil] at hfirst
    cases hfirst
  have hbelow : ∀ report ∈ reportsOf hash calls, low ≤ report.2 :=
    List.forall_mem_map.mp (List.min?_eq_some_iff.mp hlow).2
  rw [hlow] at hlowest
  have hlisted : ∀ ordinal, ordinal ∈ c.ordinals
      ↔ (timesOf hash ordinal calls).min? = some low := by
    intro ordinal
    change ordinal ∈ c.reopened.ordinals ↔ _
    rw [min?_timesOf_iff hbelow, ← hrecord, Record.mem_ordinals_observeAll, hrecord]
    change (∃ report ∈ _, _ ∧ c.lowest = _) ∨ _ ∧ ordinal ∈ [] ↔ _
    rw [hlowest]
    simp only [List.not_mem_nil, and_false, or_false]
  refine ⟨low, hlowest, hlisted, fun x hx => ?_⟩
  have hmin := (hlisted x.ordinal).mp (List.mem_map_of_mem hx)
  have hmem : low ∈ timesOf hash x.ordinal calls := List.min?_mem hmin
  obtain ⟨last, hlast⟩ : ∃ last, (timesOf hash x.ordinal calls).getLast? = some last :=
    ⟨_, List.getLast?_eq_some_getLast (List.ne_nil_of_mem hmem)⟩
  refine ⟨last, hlast, ?_⟩
  rcases Int.lt_or_eq_of_le ((List.min?_eq_some_iff.mp hmin).2 last (List.mem_of_getLast? hlast))
    with hlt | heq
  · exact .inr ⟨low, hmem, hlt⟩
  · exact .inl heq.symm

/-- A node reports a block twice, the second time at a higher time, and another one ties with its
first report in between. -/
def repeatedReport : List Call :=
  [.handle .empty ⟨1, 10, "a", 5⟩ 0, .handle .empty ⟨2, 10, "a", 5⟩ 1,
    .handle .empty ⟨1, 10, "a", 7⟩ 2]

/-- Both nodes are listed, and the third report finalizes the record. -/
theorem get?_repeatedReport : (afterAll ⟨3, 3, 1⟩ repeatedReport).get? "a" = some ⟨10, 0, some 5,
    [⟨1, "unknown_node_1", "unknown_id", 0⟩, ⟨2, "unknown_node_2", "unknown_id", 1⟩], 3, true⟩ := by
  decide +kernel

/-- The first node stays listed, though its latest report is not at the lowest time. -/
theorem listed_after_higher_report : ∃ c, (afterAll ⟨3, 3, 1⟩ repeatedReport).get? "a" = some c
    ∧ ∃ x ∈ c.reporters, (timesOf "a" x.ordinal repeatedReport).getLast? = some 7
      ∧ c.lowest = some 5 :=
  ⟨_, get?_repeatedReport, _, List.mem_cons_self .., rfl, rfl⟩

theorem listed_of_repeatedReport : ∃ c, (afterAll ⟨3, 3, 1⟩ repeatedReport).get? "a" = some c
    ∧ (timesOf "a" 2 repeatedReport).min? = c.lowest ∧ 2 ∈ c.ordinals ∧ 3 ∉ c.ordinals
    ∧ ∃ last, (timesOf "a" 1 repeatedReport).getLast? = some last
      ∧ ∃ earlier ∈ timesOf "a" 1 repeatedReport, earlier < last := by
  obtain ⟨low, hlow, hlisted, hlatest⟩ := listed_iff_lowest get?_repeatedReport
  cases hlow
  obtain ⟨last, hlast, hcases⟩ := hlatest _ (List.mem_cons_self ..)
  cases hlast
  refine ⟨_, get?_repeatedReport, rfl, (hlisted 2).mpr rfl, fun h => ?_, 7, rfl,
    hcases.resolve_left (by decide)⟩
  cases (hlisted 3).mp h

end Ledger

end AuthorWatch
