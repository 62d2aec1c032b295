import Invigilator.Records.Retry
import Mathlib.Data.ENat.Lattice

/-!
# Attempts and waits

What a run of attempts comes to, for every policy, every sequence of outcomes and whatever chance
decides. It ends with the first success, or with the last attempt that the policy allows, whichever
comes first; it gives what that attempt gave, and later outcomes are of no account to it
(`run_congr`). It waits once between two attempts, and what it waits is a doubled wait with some
chance on top (`Course.waits_eq`).

The wait of an attempt is used before it is doubled, and the number of attempts that are left is
taken down before it is looked at. So both could be off by one; `Course` says from any attempt on,
with whatever is left and whatever the next wait is, where the run goes.
-/

namespace Invigilator

/-- How many attempts it takes to succeed, without end if none does. -/
noncomputable def firstSuccess {ε α : Type} (attempt : Nat → Except ε α) : ℕ∞ :=
  ⨅ (k : Nat) (_ : ∃ x, attempt k = .ok x), ((k + 1 : ℕ) : ℕ∞)

/-- The longest time that can be kept, in nanoseconds: as many seconds as 64 bits count, and all
but one nanosecond of another. -/
def longestTime : Nat := Nat.pow 2 64 * nanosPerSecond - 1

namespace RetryPolicy

/-! ## The waits -/

/-- The waits from one on, each twice the one before up to a limit. -/
def doubled (most wait : Nat) : Nat → Nat
  | 0 => wait
  | k + 1 => min (2 * doubled most wait k) most

/-- The waits of a policy before chance adds to them. -/
def backoff (p : RetryPolicy) : Nat → Nat := doubled p.most p.base

/-- The waits from the second one on. -/
theorem doubled_succ (most wait k : Nat) :
    doubled most wait (k + 1) = doubled most (min (wait * 2) most) k := by
  induction k with
  | zero => rw [doubled, doubled, doubled, Nat.mul_comm]
  | succ k ih => rw [doubled, ih, doubled]

theorem doubled_eq {most wait : Nat} (h : wait ≤ most) (k : Nat) :
    doubled most wait k = min (2 ^ k * wait) most := by
  induction k with
  | zero => rw [doubled, Nat.pow_zero, Nat.one_mul, Nat.min_eq_left h]
  | succ k ih =>
    have hpow : 2 ^ (k + 1) * wait = 2 * (2 ^ k * wait) := by
      rw [Nat.pow_succ, Nat.mul_comm (2 ^ k), Nat.mul_assoc]
    rw [doubled, ih, hpow]
    omega

theorem doubled_mono {most wait : Nat} (h : wait ≤ most) : Monotone (doubled most wait) := by
  refine monotone_nat_of_le_succ fun k => ?_
  have hk : doubled most wait k ≤ most := by
    rw [doubled_eq h]
    exact Nat.min_le_right _ _
  rw [doubled]
  omega

/-- Chance adds no more than it may, and a number of milliseconds that 64 bits count. -/
theorem extra_le (p : RetryPolicy) (draw : Nat) :
    p.extra draw ≤ p.jitter.getD 0 ∧ p.extra draw < Nat.pow 2 64 * nanosPerMilli := by
  have hmilli : 0 < nanosPerMilli := by decide
  cases hjitter : p.jitter with
  | none => simp [extra, hjitter, hmilli]
  | some most =>
    rw [extra, hjitter, Option.getD_some]
    have hdraw := Nat.mod_lt draw (Nat.succ_pos (most / nanosPerMilli % Nat.pow 2 64))
    have hcount := Nat.mod_lt (most / nanosPerMilli) (show 0 < Nat.pow 2 64 by decide)
    have hmost := Nat.mod_le (most / nanosPerMilli) (Nat.pow 2 64)
    have hwhole := Nat.div_mul_le_self most nanosPerMilli
    refine ⟨Nat.le_trans (Nat.mul_le_mul_right _ ?_) hwhole, Nat.mul_lt_mul_of_pos_right ?_ hmilli⟩
    · exact Nat.le_trans (Nat.le_of_lt_succ hdraw) hmost
    · exact Nat.lt_of_le_of_lt (Nat.le_of_lt_succ hdraw) hcount

/-! ## The course of a run -/

section

variable {ε α : Type} {p : RetryPolicy} {operation : String} {describe : ε → String}
variable {draw : Nat → Nat} {attempt other : Nat → Except ε α} {number : Nat} {left : Patience}

/-- Where a run goes from an attempt on: the attempts before the last one fail, and the last one
succeeds or is the last that is left. -/
structure Course (p : RetryPolicy) (draw : Nat → Nat) (attempt : Nat → Except ε α) (number : Nat)
    (left : Patience) (run : RetryRun ε α) : Prop where
  begun : number < run.attempts
  within : run.attempts ≤ number + left.left
  failed : ∀ k, number ≤ k → k + 1 < run.attempts → ¬∃ x, attempt k = .ok x
  ended : (∃ x, attempt (run.attempts - 1) = .ok x) ∨ run.attempts = number + left.left
  result_eq : run.result = attempt (run.attempts - 1)
  waits_eq : run.waits = (List.range (run.attempts - 1 - number)).map fun k =>
    doubled p.most left.wait k + p.extra (draw (number + k))

/-- A run that ends with an attempt. -/
theorem Course.last {run : RetryRun ε α} (hleft : 0 < left.left)
    (hattempts : run.attempts = number + 1) (hwaits : run.waits = [])
    (hresult : run.result = attempt number)
    (hended : (∃ x, attempt number = .ok x) ∨ left.left = 1) :
    Course p draw attempt number left run where
  begun := by omega
  within := by omega
  failed k hk hlt := by omega
  ended := by rwa [hattempts, Nat.add_sub_cancel, Nat.add_left_cancel_iff, eq_comm (a := 1)]
  result_eq := by rw [hattempts, Nat.add_sub_cancel, hresult]
  waits_eq := by rw [hattempts, Nat.add_sub_cancel, Nat.sub_self, hwaits]; rfl

/-- A run that goes on after a failure, with the wait that comes before the rest. -/
theorem Course.again {run rest : RetryRun ε α} {next : Patience} {wait : Nat}
    (hnext : p.afterFailure? (draw number) left = some (wait, next))
    (hrest : Course p draw attempt (number + 1) next rest)
    (hfailed : ¬∃ x, attempt number = .ok x) (hattempts : run.attempts = rest.attempts)
    (hwaits : run.waits = wait :: rest.waits) (hresult : run.result = rest.result) :
    Course p draw attempt number left run := by
  obtain ⟨hmore, hleft⟩ := afterFailure?_some hnext
  have hsum : number + 1 + next.left = number + left.left := by omega
  have hbegun := hrest.begun
  constructor
  case begun => omega
  case within =>
    rw [hattempts, ← hsum]
    exact hrest.within
  case failed =>
    intro k hk hlt
    rcases Nat.eq_or_lt_of_le hk with rfl | hlater
    · exact hfailed
    · exact hrest.failed k hlater (hattempts ▸ hlt)
  case ended =>
    rw [hattempts, ← hsum]
    exact hrest.ended
  case result_eq =>
    rw [hattempts, hresult]
    exact hrest.result_eq
  case waits_eq =>
    -- the first wait is the one that is doubled for the rest
    rw [afterFailure?, if_neg (Nat.not_le_of_lt hmore)] at hnext
    obtain ⟨rfl, rfl⟩ := Prod.mk.inj (Option.some.inj hnext)
    have hcount : rest.attempts - 1 - number = rest.attempts - 1 - (number + 1) + 1 := by omega
    rw [hwaits, hrest.waits_eq, hattempts, hcount, List.range_succ_eq_map, List.map_cons,
      List.map_map]
    refine congrArg₂ List.cons rfl (List.map_congr_left fun k _ => ?_)
    rw [Function.comp_apply, Nat.succ_eq_add_one, doubled_succ, Nat.add_right_comm,
      Nat.add_assoc number]

/-- **A run takes its course,** as long as there is an attempt left to begin with. -/
theorem course_runFrom (hleft : 0 < left.left) :
    Course p draw attempt number left
      (p.runFrom operation describe draw attempt number left) := by
  fun_induction runFrom with
  | case1 number left x hok =>
    exact .last hleft rfl rfl hok.symm (.inl ⟨x, hok⟩)
  | case2 number left e herror hover =>
    have hlast := afterFailure?_none hover
    exact .last hleft rfl rfl herror.symm (.inr (by omega))
  | case3 number left e herror wait next hnext rest ih =>
    obtain ⟨hmore, hless⟩ := afterFailure?_some hnext
    refine .again hnext (ih (by omega)) ?_ rfl rfl rfl
    rintro ⟨x, hok⟩
    cases herror.symm.trans hok

theorem runFrom_ok {x : α} (h : attempt number = .ok x) :
    p.runFrom operation describe draw attempt number left = ⟨number + 1, [], [], .ok x⟩ := by
  rw [runFrom, h]

theorem runFrom_over {e : ε} (h : attempt number = .error e)
    (hover : p.afterFailure? (draw number) left = none) :
    p.runFrom operation describe draw attempt number left = ⟨number + 1, [], [], .error e⟩ := by
  rw [runFrom, h]
  dsimp only
  split
  · rfl
  · rename_i hnext
    cases hover.symm.trans hnext

theorem runFrom_again {e : ε} {wait : Nat} {next : Patience} (h : attempt number = .error e)
    (hnext : p.afterFailure? (draw number) left = some (wait, next)) :
    p.runFrom operation describe draw attempt number left =
      let rest := p.runFrom operation describe draw attempt (number + 1) next
      { rest with
        waits := wait :: rest.waits
        notes := retryLine operation (describe e) next.left :: rest.notes } := by
  rw [runFrom, h]
  dsimp only
  split
  · rename_i hover
    cases hover.symm.trans hnext
  · rename_i hsome
    cases hsome.symm.trans hnext
    rfl

/-- Outcomes behind the last attempt are of no account. -/
theorem runFrom_congr (hsame : ∀ k, number ≤ k →
      k < (p.runFrom operation describe draw attempt number left).attempts →
        other k = attempt k) :
    p.runFrom operation describe draw other number left =
      p.runFrom operation describe draw attempt number left := by
  fun_induction runFrom p operation describe draw attempt number left with
  | case1 number left x hok =>
    exact runFrom_ok ((hsame number (Nat.le_refl _) (Nat.lt_succ_self _)).trans hok)
  | case2 number left e herror hover =>
    exact runFrom_over ((hsame number (Nat.le_refl _) (Nat.lt_succ_self _)).trans herror) hover
  | case3 number left e herror wait next hnext rest ih =>
    have hlonger : number < rest.attempts := by
      obtain ⟨hmore, hless⟩ := afterFailure?_some hnext
      have hcourse : Course p draw attempt (number + 1) next rest := course_runFrom (by omega)
      exact Nat.lt_of_succ_lt hcourse.begun
    have hrest := ih fun k hk hlt => hsame k (Nat.le_of_succ_le hk) hlt
    rw [runFrom_again ((hsame number (Nat.le_refl _) hlonger).trans herror) hnext, hrest]

end

/-! ## From the first attempt on -/

section

variable {ε α : Type} {p : RetryPolicy} {operation : String} {describe : ε → String}
variable {draw : Nat → Nat} {attempt : Nat → Except ε α} {run : RetryRun ε α}

/-- The number of attempts is that of the first success, or that which the policy allows. -/
theorem Course.attempts_eq (h : Course p draw attempt 0 p.start run) :
    (run.attempts : ℕ∞) = min (firstSuccess attempt) (max 1 p.maxAttempts : ℕ) := by
  have hmost : p.start.left = max 1 p.maxAttempts := Nat.max_comm _ _
  have hbegun := h.begun
  have hwithin := h.within
  rw [Nat.zero_add, hmost] at hwithin
  have hfirst : (run.attempts : ℕ∞) ≤ firstSuccess attempt := by
    refine le_iInf₂ fun k hok => Nat.cast_le.mpr (Nat.le_of_not_lt fun hlt => ?_)
    exact h.failed k (Nat.zero_le k) hlt hok
  refine le_antisymm (le_min hfirst (Nat.cast_le.mpr hwithin)) ?_
  rcases h.ended with hok | hspent
  · have hlast : run.attempts - 1 + 1 = run.attempts := Nat.sub_add_cancel hbegun
    calc min (firstSuccess attempt) (max 1 p.maxAttempts : ℕ)
        ≤ firstSuccess attempt := min_le_left _ _
      _ ≤ ((run.attempts - 1 + 1 : ℕ) : ℕ∞) := iInf₂_le (run.attempts - 1) hok
      _ = run.attempts := congrArg Nat.cast hlast
  · rw [Nat.zero_add, hmost] at hspent
    rw [hspent]
    exact min_le_right _ _

/-- A wait lies between the doubled wait and that with the most that chance adds. -/
theorem Course.wait_eq (h : Course p draw attempt 0 p.start run) {k : Nat}
    (hk : k < run.waits.length) : run.waits[k] = p.backoff k + p.extra (draw k) := by
  simp only [h.waits_eq, List.getElem_map, List.getElem_range, Nat.zero_add]
  rfl

/-- Where a wait can be doubled, it can also be lengthened by chance. -/
theorem wait_fits {wait draw : Nat} (h : 2 * wait ≤ longestTime) :
    wait + p.extra draw ≤ longestTime := by
  have hextra := (p.extra_le draw).2
  have hhalf : Nat.pow 2 64 * nanosPerMilli ≤ longestTime / 2 := by decide
  omega

end

end RetryPolicy

end Invigilator
