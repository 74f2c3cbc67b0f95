import AuthorWatch.Proofs.Number.Decimal
import AuthorWatch.Proofs.Ledger.Lifetime
import Mathlib.Data.Nat.Find

/-! The record of a hash is what its history says. The history keeps every accepted import
since the ledger last did not hold the hash, each with the identity that its node had been
announced under by then; the record keeps a running minimum and a list of ties, and the
two agree after every arrival. -/

namespace AuthorWatch

/-- An accepted import as the history keeps it. -/
structure Report where
  ordinal : Int
  height : Int
  propagation : Int
  now : Int
  node : Node
  deriving DecidableEq

namespace Report

def reporter (x : Report) : Reporter := ⟨x.ordinal, x.node.name, x.node.nodeId, x.now⟩

def sameNode (x y : Report) : Bool := x.ordinal == y.ordinal

def lowest (xs : List Report) : Option Int := (xs.map propagation).min?

/-- The reports at the lowest time, the first of each node. -/
def tied (xs : List Report) : List Report :=
  (xs.filter fun x => lowest xs = some x.propagation).eraseDupsBy sameNode

/-- The open record that a history amounts to: height and time of its first report, the
lowest time of all, the nodes tied at that time, and how many reports there are. -/
def record? : List Report → Option Record
  | [] => none
  | x :: xs =>
    some ⟨x.height, x.now, lowest (x :: xs), (tied (x :: xs)).map reporter, (x :: xs).length, false⟩

end Report

/-- A record as if it had not been finalized. -/
def Record.reopened (c : Record) : Record := { c with finalized := false }

namespace Run

/-- The identity that an arrival announces for an ordinal. -/
def announced? (ordinal : Int) (a : Arrival) : Option Node :=
  match a.item with
  | .event (.announce n) => if n.ordinal = ordinal then some ⟨n.name, n.nodeId⟩ else none
  | _ => none

/-- The identity last announced for an ordinal before arrival `n`, or one that stands in. -/
def identity (r : Run) (n : ℕ) (ordinal : Int) : Node :=
  ((r.arrivals.take n).reverse.findSome? (announced? ordinal)).getD
    ⟨"unknown_node_" ++ Decimal.ofInt ordinal, "unknown_id"⟩

/-- The report of arrival `n`, if it is an accepted import of the hash. -/
def report? (r : Run) (hash : Text) (n : ℕ) : Option Report :=
  match r.arrivals[n]? with
  | some ⟨.event (.blockImport i), now⟩ =>
    if Ledger.accepts i ∧ i.hash = hash then
      some ⟨i.ordinal, i.height, i.propagation, now, r.identity n i.ordinal⟩
    else none
  | _ => none

/-- The last arrival up to `n` that found the hash absent from the ledger. -/
def lastAbsent (r : Run) (hash : Text) (n : ℕ) : ℕ :=
  Nat.findGreatest (fun m => (r.ledger m).contains hash = false) n

/-- The accepted imports of a hash before arrival `n`, since the hash was last absent. -/
def reports (r : Run) (hash : Text) (n : ℕ) : List Report :=
  (List.range' (r.lastAbsent hash n) (n - r.lastAbsent hash n)).filterMap (r.report? hash)

end Run

/-! ### A report more -/

theorem eraseDupsBy_loop_concat {α : Type} (same : α → α → Bool) (xs done : List α) (x : α) :
    List.eraseDupsBy.loop same (xs ++ [x]) done
      = if (List.eraseDupsBy.loop same xs done).any (same x)
        then List.eraseDupsBy.loop same xs done
        else List.eraseDupsBy.loop same xs done ++ [x] := by
  induction xs generalizing done with
  | nil =>
    simp only [List.nil_append, List.eraseDupsBy.loop, List.any_reverse]
    cases done.any (same x) <;> simp
  | cons y ys ih =>
    cases hy : done.any (same y) with
    | true =>
      have hstep : ∀ zs, List.eraseDupsBy.loop same (y :: zs) done
          = List.eraseDupsBy.loop same zs done := fun zs => by rw [List.eraseDupsBy.loop, hy]
      rw [List.cons_append, hstep, hstep]
      exact ih done
    | false =>
      have hstep : ∀ zs, List.eraseDupsBy.loop same (y :: zs) done
          = List.eraseDupsBy.loop same zs (y :: done) := fun zs => by
        rw [List.eraseDupsBy.loop, hy]
      rw [List.cons_append, hstep, hstep]
      exact ih (y :: done)

theorem eraseDupsBy_concat {α : Type} (same : α → α → Bool) (xs : List α) (x : α) :
    (xs ++ [x]).eraseDupsBy same
      = if (xs.eraseDupsBy same).any (same x) then xs.eraseDupsBy same
        else xs.eraseDupsBy same ++ [x] := eraseDupsBy_loop_concat same xs [] x

namespace Report

theorem lowest_concat {xs : List Report} {low : Int} (h : lowest xs = some low) (x : Report) :
    lowest (xs ++ [x]) = some (min low x.propagation) := by
  cases xs with
  | nil => cases h
  | cons y ys =>
    simp only [lowest, List.map_cons, List.min?_cons', Option.some.injEq] at h
    simp only [lowest, List.map_append, List.map_cons, List.map_nil, List.cons_append,
      List.min?_cons', List.foldl_append, List.foldl_cons, List.foldl_nil, h]

theorem lowest_le {xs : List Report} {low : Int} (h : lowest xs = some low) :
    ∀ x ∈ xs, low ≤ x.propagation := by
  intro x hx
  exact (List.min?_eq_some_iff.mp h).2 _ (List.mem_map_of_mem hx)

/-- A new lowest time leaves its own report alone at that time. -/
theorem tied_concat_of_lt {xs : List Report} {low : Int} (h : lowest xs = some low) {x : Report}
    (hx : x.propagation < low) : tied (xs ++ [x]) = [x] := by
  have hlow : lowest (xs ++ [x]) = some x.propagation := by
    rw [lowest_concat h, min_eq_right (le_of_lt hx)]
  have hnone : xs.filter (fun y => some x.propagation = some y.propagation) = [] := by
    rw [List.filter_eq_nil_iff]
    intro y hy
    have := lowest_le h y hy
    simp only [Option.some.injEq, decide_eq_true_eq]
    omega
  rw [tied, hlow, List.filter_append, hnone]
  simp [List.eraseDupsBy_cons]

theorem tied_concat_of_gt {xs : List Report} {low : Int} (h : lowest xs = some low) {x : Report}
    (hx : low < x.propagation) : tied (xs ++ [x]) = tied xs := by
  have hlow : lowest (xs ++ [x]) = some low := by rw [lowest_concat h, min_eq_left (le_of_lt hx)]
  have hne : ¬ low = x.propagation := ne_of_lt hx
  simp [tied, hlow, h, List.filter_append, hne]

theorem tied_concat_of_eq {xs : List Report} {low : Int} (h : lowest xs = some low) {x : Report}
    (hx : x.propagation = low) :
    tied (xs ++ [x]) = if (tied xs).any (sameNode x) then tied xs else tied xs ++ [x] := by
  have hlow : lowest (xs ++ [x]) = some low := by
    rw [lowest_concat h, hx, min_self]
  rw [tied, hlow, tied, h, List.filter_append]
  simp only [hx, List.filter_cons, decide_true, if_true, List.filter_nil]
  exact eraseDupsBy_concat sameNode _ x

theorem record?_eq {xs : List Report} {x : Report} (h : xs.head? = some x) :
    record? xs = some ⟨x.height, x.now, lowest xs, (tied xs).map reporter, xs.length, false⟩ := by
  cases xs with
  | nil => cases h
  | cons y ys => cases h; rfl

theorem joins_eq (xs : List Report) (x : Report) {c : Record} {low : Int} (hl : c.lowest = some low)
    (hr : c.reporters = xs.map reporter) : c.joins x.ordinal low = !xs.any (sameNode x) := by
  simp only [Record.joins, hl, hr, decide_true, Bool.true_and, List.all_map, sameNode,
    List.not_any_eq_all_not]
  congr 1
  funext y
  by_cases hy : x.ordinal = y.ordinal
  · simp [reporter, hy]
  · simp [reporter, hy, Ne.symm hy]

/-- Counting a report on the record of a history gives the record of the longer history. -/
theorem record?_concat (xs : List Report) (x : Report) :
    record? (xs ++ [x])
      = some (((record? xs).getD (.fresh x.height x.now)).observe x.reporter x.propagation) := by
  cases hxs : xs with
  | nil =>
    simp [record?, lowest, tied, Record.fresh, Record.observe, Record.lowers,
      List.eraseDupsBy_cons]
  | cons y ys =>
    obtain ⟨low, hlow⟩ : ∃ low, lowest xs = some low := by
      rw [hxs]; exact ⟨_, List.min?_cons'⟩
    rw [← hxs, record?_eq (x := y) (by simp [hxs]), record?_eq (x := y) (by simp [hxs]),
      Option.getD_some, hlow, lowest_concat hlow, List.length_append]
    rcases Int.lt_trichotomy x.propagation low with hlt | heq | hgt
    · rw [tied_concat_of_lt hlow hlt, min_eq_right (le_of_lt hlt)]
      simp [Record.observe, Record.lowers, hlt]
    · rw [tied_concat_of_eq hlow heq, heq, min_self]
      set c : Record := ⟨y.height, y.now, some low, (tied xs).map reporter, xs.length, false⟩
      have hlowers : c.lowers low = false := by simp [c, Record.lowers]
      have hjoins : c.joins x.ordinal low = !(tied xs).any (sameNode x) :=
        joins_eq (tied xs) x rfl rfl
      unfold Record.observe
      rw [hlowers, reporter, hjoins]
      cases (tied xs).any (sameNode x) <;> simp [c, reporter]
    · rw [tied_concat_of_gt hlow hgt, min_eq_left (le_of_lt hgt)]
      have hne : ¬ low = x.propagation := ne_of_lt hgt
      simp [Record.observe, Record.lowers, Record.joins, not_lt_of_gt hgt, hne]

end Report

namespace Record

theorem reopened_observe (c : Record) (reporter : Reporter) (time : Int) :
    (c.observe reporter time).reopened = c.reopened.observe reporter time := by
  have hlowers : c.reopened.lowers time = c.lowers time := rfl
  have hjoins : c.reopened.joins reporter.ordinal time = c.joins reporter.ordinal time := rfl
  unfold observe
  rw [hlowers, hjoins]
  cases c.lowers time <;> cases c.joins reporter.ordinal time <;> rfl

theorem reopened_close (c : Record) : c.close.reopened = c.reopened := rfl

end Record

namespace Run

variable {r : Run} {hash : Text} {n : ℕ} {a : Arrival}

/-! ### Identities -/

theorem get?_registry_succ (ha : r.arrivals[n]? = some a) (ordinal : Int) :
    (r.tracker (n + 1)).registry.get? (Registry.keyOf ordinal)
      = (announced? ordinal a).or ((r.tracker n).registry.get? (Registry.keyOf ordinal)) := by
  obtain ⟨item, now⟩ := a
  rw [tracker_succ ha]
  cases item with
  | foreign => rfl
  | event e =>
    cases e with
    | blockImport i => rfl
    | announce m =>
      simp only [Tracker.step, Registry.announce, OrderedMap.get?_insert, announced?]
      by_cases ho : m.ordinal = ordinal
      · simp [ho]
      · have hkey : Registry.keyOf m.ordinal ≠ Registry.keyOf ordinal :=
          fun h => ho (Decimal.ofInt_injective h)
        simp [ho, hkey]

theorem get?_registry (n : ℕ) (ordinal : Int) :
    (r.tracker n).registry.get? (Registry.keyOf ordinal)
      = (r.arrivals.take n).reverse.findSome? (announced? ordinal) := by
  induction n with
  | zero => rfl
  | succ n ih =>
    by_cases hn : n < r.arrivals.length
    · obtain ⟨a, ha⟩ := getElem?_of_lt hn
      rw [get?_registry_succ ha, ih, List.take_add_one, ha]
      simp only [Option.toList_some, List.reverse_append, List.reverse_singleton,
        List.singleton_append, List.findSome?_cons]
      cases announced? ordinal a <;> rfl
    · rw [tracker, session_succ_of_length_le (by omega), List.take_of_length_le (by omega)]
      rw [List.take_of_length_le (by omega)] at ih
      exact ih

/-- The registry knows a node by the last announcement of its ordinal. -/
theorem resolve_eq_identity (n : ℕ) (ordinal : Int) :
    (r.tracker n).registry.resolve (Registry.keyOf ordinal) = r.identity n ordinal := by
  rw [Registry.resolve, get?_registry]
  rfl

/-! ### Reports -/

theorem report?_of_not_counted (ha : r.arrivals[n]? = some a)
    (h : (r.tracker n).counted? a.now a.item = none) : r.report? hash n = none := by
  obtain ⟨item, now⟩ := a
  cases item with
  | foreign => simp [report?, ha]
  | event e =>
    cases e with
    | announce m => simp [report?, ha]
    | blockImport i =>
      have hi : Ledger.accepts i = false := by simpa [Tracker.counted?] using h
      simp [report?, ha, hi]

theorem report?_of_length_le (h : r.arrivals.length ≤ n) : r.report? hash n = none := by
  rw [report?, List.getElem?_eq_none h]

variable (hash) in
/-- An accepted import counts its report on the record of its own hash. -/
theorem reopened_counted (ha : r.arrivals[n]? = some a) {l : Ledger}
    (hl : (r.tracker n).counted? a.now a.item = some l) :
    (l.get? hash).map Record.reopened
      = (r.report? hash n).elim (((r.ledger n).get? hash).map Record.reopened) fun x => some
          (((((r.ledger n).get? hash).map Record.reopened).getD (.fresh x.height x.now)).observe
            x.reporter x.propagation) := by
  obtain ⟨item, now⟩ := a
  obtain ⟨i, rfl, hi, rfl⟩ := Tracker.counted?_eq_some_iff.mp hl
  rw [Ledger.get?_count]
  by_cases hh : i.hash = hash
  · subst hh
    simp only [report?, ha, hi, if_true, Option.elim_some, and_self, Option.map_some,
      Option.some.injEq, Record.reopened_observe, Ledger.recordFor, Ledger.reporterFor,
      resolve_eq_identity]
    cases hg : (r.ledger n).get? i.hash with
    | none =>
      have hg' : (r.tracker n).ledger.get? i.hash = none := hg
      rw [hg']
      rfl
    | some c =>
      have hg' : (r.tracker n).ledger.get? i.hash = some c := hg
      rw [hg']
      rfl
  · simp only [report?, ha, hh, if_false, and_false, Option.elim_none]
    rfl

theorem lastAbsent_le (n : ℕ) : r.lastAbsent hash n ≤ n := Nat.findGreatest_le n

theorem reports_succ (n : ℕ) : r.reports hash (n + 1)
    = if (r.ledger (n + 1)).contains hash then r.reports hash n ++ (r.report? hash n).toList
      else [] := by
  cases hheld : (r.ledger (n + 1)).contains hash with
  | false =>
    have hlast : r.lastAbsent hash (n + 1) = n + 1 := by
      rw [lastAbsent, Nat.findGreatest_succ, if_pos hheld]
    simp [reports, hlast]
  | true =>
    have hlast : r.lastAbsent hash (n + 1) = r.lastAbsent hash n := by
      rw [lastAbsent, Nat.findGreatest_succ, if_neg (by simp [hheld])]
      rfl
    have hle : r.lastAbsent hash n ≤ n := r.lastAbsent_le n
    rw [reports, hlast, show n + 1 - r.lastAbsent hash n = n - r.lastAbsent hash n + 1 by omega,
      List.range'_concat, List.filterMap_append, if_pos rfl]
    congr 1
    rw [show r.lastAbsent hash n + 1 * (n - r.lastAbsent hash n) = n by omega]
    cases hx : r.report? hash n <;> simp [hx]

/-- At every point of a run the ledger holds a record of a hash exactly if the hash has
reports since it was last absent, and apart from being finalized the record is the one
that these reports amount to. -/
theorem record_eq_of_reports (r : Run) (hash : Text) (n : ℕ) :
    ((r.ledger n).get? hash).map Record.reopened = Report.record? (r.reports hash n) := by
  induction n with
  | zero => simp [reports, lastAbsent, Report.record?]
  | succ n ih =>
    rw [reports_succ]
    cases hheld : (r.ledger (n + 1)).contains hash with
    | false =>
      rw [(OrderedMap.not_contains_iff _ _).mp hheld]
      rfl
    | true =>
      obtain ⟨c, hc⟩ := (OrderedMap.contains_iff _ _).mp hheld
      rw [if_pos rfl]
      by_cases hn : n < r.arrivals.length
      · obtain ⟨a, ha⟩ := getElem?_of_lt hn
        have hc' := hc
        rw [ledger_succ ha] at hc'
        cases hl : (r.tracker n).counted? a.now a.item with
        | none =>
          have hold : (r.ledger n).get? hash = some c := Tracker.get?_of_not_counted hl hc'
          rw [hc, report?_of_not_counted ha hl, Option.toList_none, List.append_nil, ← ih, hold]
        | some l =>
          obtain ⟨d, hd, hcd⟩ := Tracker.get?_of_counted hl hc'
          have hreopened : c.reopened = d.reopened := by
            rw [hcd]
            split
            · exact Record.reopened_close d
            · rfl
          have hcount := reopened_counted hash ha hl
          rw [hd, Option.map_some, ih] at hcount
          rw [hc, Option.map_some, hreopened, hcount]
          cases hx : r.report? hash n with
          | none => simp
          | some x => exact (Report.record?_concat _ x).symm
      · have hsame : (r.ledger n).get? hash = some c := by
          rwa [ledger_succ_of_length_le (by omega)] at hc
        rw [hc, report?_of_length_le (by omega), Option.toList_none, List.append_nil, ← ih, hsame]

end Run

end AuthorWatch
