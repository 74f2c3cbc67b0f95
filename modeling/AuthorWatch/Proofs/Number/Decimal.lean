import AuthorWatch.Number.Decimal
import Mathlib.Tactic.Common
import Mathlib.Tactic.IntervalCases

/-! A written numeral reads back: the digits that lead it are those of its number, so
different numbers have different numerals. -/

namespace AuthorWatch.Decimal

theorem digit?_digit {d : ℕ} (h : d < 10) : (digit d).digit? = some d := by
  interval_cases d <;> decide

theorem digit?_lt {g : Glyph} {d : ℕ} (h : g.digit? = some d) : d < 10 := by
  cases g with
  | surrogate u => cases h
  | char c =>
    simp only [Glyph.digit?, Option.ite_none_right_eq_some, Option.some.injEq] at h
    obtain ⟨hdigit, rfl⟩ := h
    simp only [Char.isDigit, Bool.and_eq_true, decide_eq_true_eq] at hdigit
    have hle : c.toNat ≤ 57 := hdigit.2
    omega

/-! ### Digits -/

theorem digitsOnto_lt (n : ℕ) (done : List ℕ) (h : ∀ d ∈ done, d < 10) :
    ∀ d ∈ digitsOnto n done, d < 10 := by
  fun_induction digitsOnto n done with
  | case1 n done hn => simpa [hn] using h
  | case2 n done _ ih =>
    refine ih fun d hd => ?_
    rcases List.mem_cons.mp hd with rfl | hd
    · omega
    · exact h d hd

theorem digits_lt (n : ℕ) : ∀ d ∈ digits n, d < 10 := digitsOnto_lt n [] (by simp)

theorem digitsOnto_ne_nil (n : ℕ) (done : List ℕ) : digitsOnto n done ≠ [] := by
  fun_induction digitsOnto n done with
  | case1 n done _ => simp
  | case2 n done _ ih => exact ih

theorem digits_ne_nil (n : ℕ) : digits n ≠ [] := digitsOnto_ne_nil n []

/-- Only zero has a zero in front. -/
theorem eq_zero_of_head_digitsOnto (n : ℕ) (done : List ℕ)
    (h : (digitsOnto n done).head? = some 0) : n = 0 := by
  fun_induction digitsOnto n done with
  | case1 n done _ => simpa using h
  | case2 n done hn ih =>
    have := ih h
    omega

theorem digits_zero : digits 0 = [0] := by simp [digits, digitsOnto]

theorem digits_eq_of_head (n : ℕ) (h : (digits n).head? = some 0) : digits n = [0] := by
  rw [eq_zero_of_head_digitsOnto n [] h, digits_zero]

/-! ### Size -/

theorem valueFrom_lt {n k : ℕ} {ds : List ℕ} (hn : n < 10 ^ k) (hd : ∀ d ∈ ds, d < 10) :
    valueFrom n ds < 10 ^ (k + ds.length) := by
  induction ds generalizing n k with
  | nil => simpa [valueFrom] using hn
  | cons d ds ih =>
    have hlt : d < 10 := hd d (List.mem_cons_self ..)
    have hstep : n * 10 + d < 10 ^ (k + 1) := by
      rw [Nat.pow_succ]
      omega
    have := ih hstep fun e he => hd e (List.mem_cons_of_mem _ he)
    rwa [List.length_cons, Nat.add_comm ds.length 1, ← Nat.add_assoc]

theorem value_lt {ds : List ℕ} (hd : ∀ d ∈ ds, d < 10) : value ds < 10 ^ ds.length := by
  have h := valueFrom_lt (n := 0) (k := 0) (by decide) hd
  rwa [Nat.zero_add] at h

theorem value_dropWhile (ds : List ℕ) : value (ds.dropWhile (· = 0)) = value ds := by
  induction ds with
  | nil => rfl
  | cons d ds ih =>
    rw [List.dropWhile_cons]
    split
    next hd =>
      rw [of_decide_eq_true hd, ih]
      rfl
    next => rfl

theorem length_digitsOnto_le {n k : ℕ} (done : List ℕ) (h : n < 10 ^ (k + 1)) :
    (digitsOnto n done).length ≤ k + 1 + done.length := by
  induction k generalizing n done with
  | zero =>
    have hn : n < 10 := by simpa using h
    rw [digitsOnto, if_pos hn, List.length_cons]
    omega
  | succ k ih =>
    rw [digitsOnto]
    split
    · rw [List.length_cons]
      omega
    · have hdiv : n / 10 < 10 ^ (k + 1) := by
        rw [Nat.pow_succ] at h
        omega
      have := ih (n % 10 :: done) hdiv
      rw [List.length_cons] at this
      omega

/-- A number below a power of ten has no more digits than its exponent. -/
theorem length_digits_le_iff {n k : ℕ} (hk : 0 < k) : (digits n).length ≤ k ↔ n < 10 ^ k := by
  constructor
  · intro h
    calc n = value (digits n) := (value_digits n).symm
      _ < 10 ^ (digits n).length := value_lt (digits_lt n)
      _ ≤ 10 ^ k := Nat.pow_le_pow_right (by decide) h
  · intro h
    rw [← Nat.sub_add_cancel hk] at h ⊢
    exact length_digitsOnto_le [] h

/-! ### Reading back -/

/-- The text does not go on with a digit. -/
def Stops (t : Text) : Prop := ∀ g ∈ t.head?, g.digit? = none

theorem stops_nil : Stops [] := by simp [Stops]

theorem stops_cons {g : Glyph} {t : Text} (h : g.digit? = none) : Stops (g :: t) := by
  simpa [Stops] using h

theorem takeDigits_of_stops {t : Text} (h : Stops t) : takeDigits t = ([], t) := by
  cases t with
  | nil => rfl
  | cons g rest =>
    have hg : g.digit? = none := h g rfl
    simp [takeDigits, hg]

theorem takeDigits_digits (ds : List ℕ) (hd : ∀ d ∈ ds, d < 10) {rest : Text} (h : Stops rest) :
    takeDigits (ds.map digit ++ rest) = (ds, rest) := by
  induction ds with
  | nil => exact takeDigits_of_stops h
  | cons d ds ih =>
    have hlt : d < 10 := hd d (List.mem_cons_self ..)
    have hrest := ih fun e he => hd e (List.mem_cons_of_mem _ he)
    simp only [List.map_cons, List.cons_append, takeDigits, digit?_digit hlt, hrest]

theorem takeDigits_ofNat (n : ℕ) {rest : Text} (h : Stops rest) :
    takeDigits (ofNat n ++ rest) = (digits n, rest) := takeDigits_digits _ (digits_lt n) h

theorem takeDigits_lt (t : Text) : ∀ d ∈ (takeDigits t).1, d < 10 := by
  induction t with
  | nil => simp [takeDigits]
  | cons g rest ih =>
    unfold takeDigits
    split
    next d hd =>
      intro e he
      rcases List.mem_cons.mp he with rfl | he
      · exact digit?_lt hd
      · exact ih e he
    next => simp

theorem ofNat_injective {n m : ℕ} (h : ofNat n = ofNat m) : n = m := by
  have hn := takeDigits_ofNat n stops_nil
  have hm := takeDigits_ofNat m stops_nil
  rw [h, hm] at hn
  rw [← value_digits n, ← value_digits m, (Prod.mk.inj hn).1]

theorem minus_ne_ofNat (n : ℕ) (t : Text) : Glyph.char '-' :: t ≠ ofNat n := by
  intro h
  have hn := takeDigits_ofNat n stops_nil
  rw [List.append_nil, ← h, takeDigits_of_stops (stops_cons (by decide))] at hn
  exact digits_ne_nil n (Prod.mk.inj hn).1.symm

theorem ofInt_injective {i j : ℤ} (h : ofInt i = ofInt j) : i = j := by
  cases i with
  | ofNat n =>
    cases j with
    | ofNat m => rw [ofNat_injective h]
    | negSucc m => exact absurd h.symm (minus_ne_ofNat n _)
  | negSucc n =>
    cases j with
    | ofNat m => exact absurd h (minus_ne_ofNat m _)
    | negSucc m =>
      have := ofNat_injective (List.cons.inj h).2
      rw [Int.negSucc_inj]
      omega

end AuthorWatch.Decimal
