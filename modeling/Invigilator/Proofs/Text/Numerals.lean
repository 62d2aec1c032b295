import Invigilator.Text.Decimal

/-!
# Numerals

What readers of numerals rest on besides their value: a numeral has no zero in front, it is as long
as the number is large, and whoever reads digits from the front of a text reads it in full. Numerals
of one width are in order, character by character, as their numbers are.
-/

namespace Invigilator.Decimal

/-- No numeral but that of zero begins with a zero. -/
theorem head?_digits {n : Nat} (h : 0 < n) : (digits n).head? ≠ some '0' := by
  induction n using digits.induct with
  | case1 n hsmall =>
    have hdigit : ∀ d, d < 10 → 0 < d → digitChar d ≠ '0' := by decide
    rw [digits, if_pos hsmall]
    intro hzero
    exact hdigit n hsmall h (Option.some.inj hzero)
  | case2 n hlarge ih =>
    have hfront := ih (by omega)
    rw [digits, if_neg hlarge]
    cases hdigits : digits (n / 10) with
    | nil => exact absurd hdigits (digits_ne_nil (n / 10))
    | cons c cs =>
      rw [hdigits] at hfront
      exact hfront

/-- A number below a power of ten has at most as many digits. -/
theorem length_digits_le {n k : Nat} (hk : 0 < k) (h : n < Nat.pow 10 k) :
    (digits n).length ≤ k := by
  induction n using digits.induct generalizing k with
  | case1 n hsmall =>
    rw [digits, if_pos hsmall]
    exact hk
  | case2 n hlarge ih =>
    rw [digits, if_neg hlarge, List.length_append, List.length_singleton]
    obtain ⟨k, rfl⟩ : ∃ i, k = i + 1 := ⟨k - 1, by omega⟩
    have hpow : Nat.pow 10 (k + 1) = Nat.pow 10 k * 10 := rfl
    have hdivided : n / 10 < Nat.pow 10 k := by omega
    have hpositive : 0 < k := by
      refine Nat.pos_of_ne_zero fun hzero => ?_
      subst hzero
      have hone : Nat.pow 10 0 = 1 := rfl
      omega
    have hshort := ih hpositive hdivided
    omega

/-- The digits at the front of a text are read up to what is no digit. -/
theorem spanDigits_append {ds rest : List Char} (hds : ∀ c ∈ ds, isDigit c = true)
    (hrest : ∀ c ∈ rest.head?, isDigit c = false) : spanDigits (ds ++ rest) = (ds, rest) := by
  induction ds with
  | nil =>
    cases rest with
    | nil => rfl
    | cons c rest => simp [spanDigits, hrest c rfl]
  | cons c ds ih =>
    have hc := hds c List.mem_cons_self
    have hbehind := ih fun d hd => hds d (List.mem_cons_of_mem c hd)
    simp [spanDigits, hc, hbehind]

theorem spanDigits_digits (n : Nat) : spanDigits (digits n) = (digits n, []) := by
  have hspan : spanDigits (digits n ++ []) = (digits n, []) :=
    spanDigits_append (isDigit_of_mem_digits n) nofun
  rwa [List.append_nil] at hspan

/-- The numeral of a number is read. -/
theorem read?_digits (n : Nat) : read? (digits n) = some n := by
  have hall : (digits n).all isDigit = true := List.all_eq_true.mpr (isDigit_of_mem_digits n)
  have hsome : (digits n).isEmpty = false := by
    rw [List.isEmpty_eq_false_iff]
    exact digits_ne_nil n
  rw [read?, hall, hsome, value_digits]
  rfl

/-! ## Zeros in front -/

/-- Zeros in front do not change the value. -/
theorem value_padded (width n : Nat) : value (padded width n) = n := by
  unfold padded
  induction width - (digits n).length with
  | zero => exact value_digits n
  | succ k ih => exact ih

theorem isDigit_of_mem_padded (width n : Nat) : ∀ c ∈ padded width n, isDigit c = true := by
  intro c hc
  rcases List.mem_append.mp hc with hc | hc
  · rw [List.eq_of_mem_replicate hc]
    rfl
  · exact isDigit_of_mem_digits n c hc

/-- A number that fits has exactly the width. -/
theorem length_padded {width n : Nat} (hwidth : 0 < width) (h : n < Nat.pow 10 width) :
    (padded width n).length = width := by
  have hle := length_digits_le hwidth h
  rw [padded, List.length_append, List.length_replicate]
  omega

/-! ## The order of numerals

Texts are compared character by character, and a text comes before those that go on behind it.
-/

/-- Of texts with fronts of one length the fronts are compared first. -/
theorem append_lt_append_iff {as bs cs ds : List Char} (h : as.length = bs.length) :
    as ++ cs < bs ++ ds ↔ as < bs ∨ as = bs ∧ cs < ds := by
  induction as generalizing bs with
  | nil =>
    obtain rfl := List.eq_nil_of_length_eq_zero h.symm
    simp
  | cons a as ih =>
    obtain ⟨b, bs, rfl⟩ := List.exists_cons_of_length_eq_add_one h.symm
    rw [List.cons_append, List.cons_append, List.cons_lt_cons_iff, List.cons_lt_cons_iff,
      ih (Nat.succ.inj h), List.cons.injEq, and_or_left, or_assoc, and_assoc]

theorem digitChar_lt_digitChar : ∀ m < 10, ∀ n < 10, digitChar m < digitChar n ↔ m < n := by
  decide

/-- The last digit of a numeral of fixed width. -/
theorem padded_succ {width : Nat} (hwidth : 0 < width) (n : Nat) :
    padded (width + 1) n = padded width (n / 10) ++ [digitChar (n % 10)] := by
  by_cases hn : n < 10
  · have hdigit : digits n = [digitChar n] := by rw [digits, if_pos hn]
    have hzero : digits 0 = ['0'] := by rw [digits, if_pos (by decide)]; rfl
    obtain ⟨k, rfl⟩ : ∃ k, width = k + 1 := ⟨width - 1, by omega⟩
    rw [padded, padded, hdigit, Nat.div_eq_of_lt hn, Nat.mod_eq_of_lt hn, hzero]
    exact congrArg (· ++ [digitChar n]) List.replicate_succ'
  · rw [padded, padded, digits, if_neg hn, List.length_append, List.length_singleton,
      Nat.add_sub_add_right, List.append_assoc]

theorem padded_inj {width m n : Nat} : padded width m = padded width n ↔ m = n := by
  refine ⟨fun h => ?_, congrArg (padded width)⟩
  rw [← value_padded width m, h, value_padded]

theorem length_padded_eq {width m n : Nat} (hwidth : 0 < width) (hm : m < Nat.pow 10 width)
    (hn : n < Nat.pow 10 width) : (padded width m).length = (padded width n).length :=
  (length_padded hwidth hm).trans (length_padded hwidth hn).symm

/-- **Numerals of one width are ordered as their numbers.** -/
theorem padded_lt_padded {width m n : Nat} (hwidth : 0 < width) (hm : m < Nat.pow 10 width)
    (hn : n < Nat.pow 10 width) : padded width m < padded width n ↔ m < n := by
  obtain ⟨k, rfl⟩ : ∃ k, width = k + 1 := ⟨width - 1, by omega⟩
  clear hwidth
  induction k generalizing m n with
  | zero =>
    have hm' : m < 10 := hm
    have hn' : n < 10 := hn
    have hone : ∀ d < 10, padded 1 d = [digitChar d] := by decide +kernel
    rw [Nat.zero_add, hone m hm', hone n hn', List.cons_lt_cons_iff,
      digitChar_lt_digitChar m hm' n hn']
    simp
  | succ k ih =>
    -- the digits in front decide, and where they are the same, the last one
    have hpow : Nat.pow 10 (k + 1 + 1) = Nat.pow 10 (k + 1) * 10 := rfl
    have hm' : m / 10 < Nat.pow 10 (k + 1) := by omega
    have hn' : n / 10 < Nat.pow 10 (k + 1) := by omega
    have hfront := ih hm' hn'
    have hlast := digitChar_lt_digitChar (m % 10) (Nat.mod_lt m (by decide)) (n % 10)
      (Nat.mod_lt n (by decide))
    rw [padded_succ (Nat.succ_pos k), padded_succ (Nat.succ_pos k),
      append_lt_append_iff (length_padded_eq (Nat.succ_pos k) hm' hn'), hfront, padded_inj,
      List.cons_lt_cons_iff, hlast]
    simp only [List.lt_irrefl, and_false, or_false]
    omega

/-- Where texts begin with numerals of one width, these decide, and what is behind them only if
they are the same. -/
theorem padded_append_lt {width m n : Nat} (hwidth : 0 < width) (hm : m < Nat.pow 10 width)
    (hn : n < Nat.pow 10 width) (cs ds : List Char) :
    padded width m ++ cs < padded width n ++ ds ↔ m < n ∨ m = n ∧ cs < ds := by
  rw [append_lt_append_iff (length_padded_eq hwidth hm hn), padded_lt_padded hwidth hm hn,
    padded_inj]

/-- A numeral of fixed width begins with that of the number without its last digits. -/
theorem exists_padded_add {width : Nat} (hwidth : 0 < width) (more n : Nat) :
    ∃ ds, padded (width + more) n = padded width (n / Nat.pow 10 more) ++ ds ∧
      ds.length = more ∧ ∀ c ∈ ds, isDigit c = true := by
  induction more generalizing n with
  | zero => exact ⟨[], by simp, rfl, fun _ h => (List.not_mem_nil h).elim⟩
  | succ more ih =>
    obtain ⟨ds, hds, hlength, hdigits⟩ := ih (n / 10)
    have hpow : n / 10 / Nat.pow 10 more = n / Nat.pow 10 (more + 1) := by
      rw [Nat.div_div_eq_div_mul, Nat.mul_comm]
      rfl
    refine ⟨ds ++ [digitChar (n % 10)], ?_, ?_, fun c hc => ?_⟩
    · rw [← Nat.add_assoc, padded_succ (by omega), hds, hpow, List.append_assoc]
    · rw [List.length_append, hlength, List.length_singleton]
    · rcases List.mem_append.mp hc with hc | hc
      · exact hdigits c hc
      · rw [List.mem_singleton.mp hc]
        exact isDigit_digitChar _ (Nat.mod_lt n (by decide))

end Invigilator.Decimal
