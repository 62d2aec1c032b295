import Invigilator.Time.Written

/-!
# Days and dates

Every day has a date, the date exists, and the day can be computed back from it. The argument goes
by the parts of a cycle of 400 years: a day of it is a century, a span of four years in it, a year
in that, and a day (`InCycle`). A century and a span are one day shorter or longer than the formulas
allow for only at their ends, and that is where the leap days are. The parts are in order as the
days are, and so are the dates (`before_ofDays`).
-/

namespace Invigilator.Date

/-! ## A cycle of 400 years -/

/-- A day of a cycle by its parts: the century, the span of four years, the year, counted from
March, and the day of the year. -/
structure InCycle (c q a d : Nat) : Prop where
  century : c ≤ 3
  span : q ≤ 24
  year : a ≤ 3
  day : d ≤ 365
  /-- A year has a leap day when it ends a span, unless the span ends a century with which the cycle
  does not end. -/
  leap : d = 365 → a = 3 ∧ (q = 24 → c = 3)

variable {c q a d n : Nat}

/-- Every day of a cycle has its parts. -/
theorem exists_inCycle (hn : n < 146097) :
    ∃ c q a d, InCycle c q a d ∧ n = 36524 * c + 1461 * q + 365 * a + d := by
  have hc := Nat.div_add_mod n 36524
  have hr := Nat.mod_lt n (show 0 < 36524 by decide)
  generalize n / 36524 = c at hc
  generalize n % 36524 = r at hc hr
  by_cases hcycle : c = 4
  · -- the last day of the cycle
    exact ⟨3, 24, 3, 365, ⟨by omega, by omega, by omega, by omega, by omega⟩, by omega⟩
  have hq := Nat.div_add_mod r 1461
  have hs := Nat.mod_lt r (show 0 < 1461 by decide)
  generalize r / 1461 = q at hq
  generalize r % 1461 = s at hq hs
  by_cases hspan : s = 1460
  · -- the last day of a span
    exact ⟨c, q, 3, 365, ⟨by omega, by omega, by omega, by omega, by omega⟩, by omega⟩
  have ha := Nat.div_add_mod s 365
  have hd := Nat.mod_lt s (show 0 < 365 by decide)
  generalize s / 365 = a at ha
  generalize s % 365 = d at ha hd
  exact ⟨c, q, a, d, ⟨by omega, by omega, by omega, by omega, by omega⟩, by omega⟩

/-- The days of the whole spans, but for those that are left over. -/
theorem InCycle.spans (h : InCycle c q a d) (hn : n = 36524 * c + 1461 * q + 365 * a + d) :
    ∃ t ≤ 1, n / 1460 = 25 * c + q + t ∧ (t = 1 → 1 ≤ d) ∧ (d = 365 → t = 1) := by
  obtain ⟨hc, hq, ha, hd, hleap⟩ := h
  by_cases ht : 1460 ≤ 24 * c + q + 365 * a + d
  · have hdiv : n / 1460 = 25 * c + q + 1 := Nat.div_eq_of_lt_le (by omega) (by omega)
    exact ⟨1, Nat.le_refl 1, hdiv, fun _ => by omega, fun _ => rfl⟩
  · have hdiv : n / 1460 = 25 * c + q + 0 := Nat.div_eq_of_lt_le (by omega) (by omega)
    exact ⟨0, Nat.zero_le 1, hdiv, fun h => by omega, fun h => by omega⟩

/-- So the year of a day of the cycle is what the formula says. -/
theorem InCycle.year_eq (h : InCycle c q a d) (hn : n = 36524 * c + 1461 * q + 365 * a + d) :
    (n - n / 1460 + n / 36524 - n / 146096) / 365 = 100 * c + 4 * q + a := by
  obtain ⟨t, ht, hdiv, hfirst, hlast⟩ := h.spans hn
  obtain ⟨hc, hq, ha, hd, hleap⟩ := h
  have hcentury : n / 36524 = c ∧ n / 146096 = 0 ∨ n / 36524 = c + 1 ∧ n / 146096 = 1 := by
    by_cases hcycle : n = 146096
    · have hthird : c = 3 := by omega
      rw [hcycle, hthird]
      exact Or.inr ⟨rfl, rfl⟩
    · have hwhole : n / 36524 = c := Nat.div_eq_of_lt_le (by omega) (by omega)
      exact Or.inl ⟨hwhole, Nat.div_eq_of_lt (by omega)⟩
  rw [hdiv]
  exact Nat.div_eq_of_lt_le (by omega) (by omega)

/-- And what is left over is the day of that year. -/
theorem InCycle.day_eq (h : InCycle c q a d) :
    36524 * c + 1461 * q + 365 * a + d - (365 * (100 * c + 4 * q + a) + (100 * c + 4 * q + a) / 4 -
      (100 * c + 4 * q + a) / 100) = d := by
  obtain ⟨hc, hq, ha, hd, -⟩ := h
  omega

/-! ## The months of a year -/

/-- The month of a day of the year, both counted from March as zero. -/
def monthOf (d : Nat) : Nat := (5 * d + 2) / 153

/-- The date of a day of a year of a cycle, all counted from March. -/
def fromMarch (cycle : Int) (y d : Nat) : Date :=
  let m := monthOf d
  let month := if m < 10 then m + 3 else m - 9
  ⟨if month ≤ 2 then cycle * 400 + y + 1 else cycle * 400 + y, month, d - daysBeforeMonth m + 1⟩

/-- What the months of a year are good for: the date lies in its month, the month is found again,
and only the leap day is a 29th of February. -/
theorem month_spec : ∀ d ≤ 365,
    (fromMarch 0 0 d).month ≤ 12 ∧ 1 ≤ (fromMarch 0 0 d).month ∧
      ((fromMarch 0 0 d).month ≤ 2 ↔ 306 ≤ d) ∧
      (if (fromMarch 0 0 d).month ≤ 2 then (fromMarch 0 0 d).month + 9
        else (fromMarch 0 0 d).month - 3) = monthOf d ∧
      daysBeforeMonth (monthOf d) + ((fromMarch 0 0 d).day - 1) = d ∧
      1 ≤ (fromMarch 0 0 d).day ∧ (fromMarch 0 0 d).day ≤ monthLength 2000 (fromMarch 0 0 d).month ∧
      ((fromMarch 0 0 d).month = 2 → d < 365 → (fromMarch 0 0 d).day ≤ 28) := by
  decide +kernel

/-! ## Days -/

/-- The date of a day, by the parts of its cycle. -/
theorem exists_ofDays (n : Int) : ∃ (cycle : Int) (c q a d : Nat), InCycle c q a d ∧
    n + 719468 = cycle * 146097 + (36524 * c + 1461 * q + 365 * a + d : Nat) ∧
    ofDays n = fromMarch cycle (100 * c + 4 * q + a) d := by
  have hlt : ((n + 719468) % 146097).toNat < 146097 := by omega
  obtain ⟨c, q, a, d, hparts, hday⟩ := exists_inCycle hlt
  have hdays : n + 719468 = (n + 719468) / 146097 * 146097 +
      (36524 * c + 1461 * q + 365 * a + d : Nat) := by omega
  refine ⟨(n + 719468) / 146097, c, q, a, d, hparts, hdays, ?_⟩
  have hyear := hparts.year_eq rfl
  have hrest := hparts.day_eq
  unfold ofDays
  dsimp only
  rw [hday, hyear, hrest]
  rfl

/-- The year of a date counted from March is the next one from January on. -/
theorem year_fromMarch (cycle : Int) (y : Nat) {d : Nat} (hd : d ≤ 365) :
    (fromMarch cycle y d).year = cycle * 400 + y + if 306 ≤ d then 1 else 0 := by
  obtain ⟨-, -, hmarch, -⟩ := month_spec d hd
  show (if (fromMarch 0 0 d).month ≤ 2 then _ else _) = _
  by_cases hm : (fromMarch 0 0 d).month ≤ 2
  · rw [if_pos hm, if_pos (hmarch.mp hm)]
  · rw [if_neg hm, if_neg (mt hmarch.mpr hm), Int.add_zero]

/-- The number of a date that is counted from March. -/
theorem toDays_fromMarch {cycle : Int} {y d : Nat} (hy : y ≤ 399) (hd : d ≤ 365) :
    toDays (fromMarch cycle y d) =
      cycle * 146097 + (y * 365 + y / 4 - y / 100 + d : Nat) - 719468 := by
  obtain ⟨-, -, -, hmonth, hday, -⟩ := month_spec d hd
  have hyear : (if (fromMarch cycle y d).month ≤ 2 then (fromMarch cycle y d).year - 1
      else (fromMarch cycle y d).year) = cycle * 400 + y := by
    show (if (fromMarch cycle y d).month ≤ 2 then
      (if (fromMarch cycle y d).month ≤ 2 then cycle * 400 + (y : Int) + 1 else _) - 1 else
      (if (fromMarch cycle y d).month ≤ 2 then _ else cycle * 400 + (y : Int))) = _
    split <;> omega
  have hmonth' : (if (fromMarch cycle y d).month ≤ 2 then (fromMarch cycle y d).month + 9
      else (fromMarch cycle y d).month - 3) = monthOf d := hmonth
  have hday' : daysBeforeMonth (monthOf d) + ((fromMarch cycle y d).day - 1) = d := hday
  have hcycle : (cycle * 400 + (y : Int)) / 400 = cycle := by omega
  have hrest : ((cycle * 400 + (y : Int)) % 400).toNat = y := by omega
  unfold toDays
  dsimp only
  rw [hyear, hmonth', hday', hcycle, hrest]

/-- **The day of a date that was made from a day.** -/
theorem toDays_ofDays (n : Int) : toDays (ofDays n) = n := by
  obtain ⟨cycle, c, q, a, d, hparts, hn, hdate⟩ := exists_ofDays n
  obtain ⟨hc, hq, ha, hd, -⟩ := hparts
  rw [hdate, toDays_fromMarch (by omega) hd]
  omega

/-- Days whose dates agree in their parts are the same. -/
theorem ofDays_parts {m n : Int} : (ofDays m).year = (ofDays n).year ∧
    (ofDays m).month = (ofDays n).month ∧ (ofDays m).day = (ofDays n).day ↔ m = n := by
  constructor
  · rintro ⟨hyear, hmonth, hday⟩
    rw [← toDays_ofDays m, toDays, hyear, hmonth, hday]
    exact toDays_ofDays n
  · rintro rfl
    exact ⟨rfl, rfl, rfl⟩

/-- The length of a month other than February. -/
theorem monthLength_eq {y z : Int} {m : Nat} (hm : m ≠ 2) : monthLength y m = monthLength z m := by
  unfold monthLength
  rw [if_neg hm, if_neg hm]

theorem monthLength_le (y : Int) (m : Nat) : monthLength y m ≤ 31 := by
  unfold monthLength
  split
  · split <;> decide
  · split <;> decide

/-- The year of the last day of a year counted from March is a leap year, if the day is one more
than 365. -/
theorem InCycle.isLeapYear (h : InCycle c q a 365) (cycle : Int) :
    isLeapYear (cycle * 400 + (100 * c + 4 * q + a : Nat) + 1) = true := by
  obtain ⟨hc, hq, ha, -, hleap⟩ := h
  obtain ⟨hthird, hcycle⟩ := hleap rfl
  have hfour : (cycle * 400 + (100 * c + 4 * q + a : Nat) + 1 : Int) % 4 = 0 := by omega
  have hcentury : (cycle * 400 + (100 * c + 4 * q + a : Nat) + 1 : Int) % 100 ≠ 0 ∨
      (cycle * 400 + (100 * c + 4 * q + a : Nat) + 1 : Int) % 400 = 0 := by omega
  simp only [Date.isLeapYear, hfour, decide_true, Bool.true_and, Bool.or_eq_true, decide_eq_true_eq]
  exact hcentury

/-- **Every day has a date that exists.** -/
theorem exists?_ofDays (n : Int) : (ofDays n).exists? = true := by
  obtain ⟨cycle, c, q, a, d, hparts, -, hdate⟩ := exists_ofDays n
  obtain ⟨hlast, hfirst, hmarch, -, -, hday, hlength, hfebruary⟩ := month_spec d hparts.day
  rw [hdate]
  -- the months of a year do not depend on the year but for the leap day
  have hfits : (fromMarch cycle (100 * c + 4 * q + a) d).day ≤
      monthLength (fromMarch cycle (100 * c + 4 * q + a) d).year
        (fromMarch cycle (100 * c + 4 * q + a) d).month := by
    by_cases hm : (fromMarch cycle (100 * c + 4 * q + a) d).month = 2
    · rw [monthLength, if_pos hm]
      by_cases hd : d = 365
      · subst hd
        have hyear : (fromMarch cycle (100 * c + 4 * q + a) 365).year =
            cycle * 400 + (100 * c + 4 * q + a : Nat) + 1 := rfl
        rw [hyear, hparts.isLeapYear cycle]
        exact Nat.le_refl 29
      · have hshort := hfebruary hm (by have := hparts.day; omega)
        have hday' : (fromMarch cycle (100 * c + 4 * q + a) d).day ≤ 28 := hshort
        split <;> omega
    · rw [monthLength_eq hm]
      exact hlength
  have hfirst' : 1 ≤ (fromMarch cycle (100 * c + 4 * q + a) d).month := hfirst
  have hlast' : (fromMarch cycle (100 * c + 4 * q + a) d).month ≤ 12 := hlast
  have hday' : 1 ≤ (fromMarch cycle (100 * c + 4 * q + a) d).day := hday
  simp [exists?, hfirst', hlast', hday', hfits]

/-- The month and the day of a date have two digits. -/
theorem ofDays_fields_le (n : Int) : (ofDays n).month ≤ 12 ∧ (ofDays n).day ≤ 31 := by
  have hexists := exists?_ofDays n
  simp only [exists?, Bool.and_eq_true, decide_eq_true_eq] at hexists
  obtain ⟨⟨⟨-, hmonth⟩, -⟩, hday⟩ := hexists
  exact ⟨hmonth, Nat.le_trans hday (monthLength_le _ _)⟩

/-! ## The calendar's range -/

/-- A day of the calendar has a year of the calendar. -/
theorem year_ofDays {n : Int} (hfirst : Stamp.firstDay ≤ n) (hlast : n ≤ Stamp.lastDay) :
    Stamp.firstYear ≤ (ofDays n).year ∧ (ofDays n).year ≤ Stamp.lastYear := by
  have hfirstDay : Stamp.firstDay = -96465292 := by decide
  have hlastDay : Stamp.lastDay = 95026236 := by decide
  obtain ⟨cycle, c, q, a, d, hparts, hn, hdate⟩ := exists_ofDays n
  have hyear := year_fromMarch cycle (100 * c + 4 * q + a) hparts.day
  rw [← hdate] at hyear
  obtain ⟨hc, hq, ha, hd, -⟩ := hparts
  rw [hfirstDay] at hfirst
  rw [hlastDay] at hlast
  rw [hyear, Stamp.firstYear, Stamp.lastYear]
  clear hdate hfirstDay hlastDay hyear
  constructor
  · split <;> omega
  · split
    · -- past the end of the last year, its parts are these
      refine Int.not_lt.mp fun hpast => ?_
      have hcycle : cycle = 655 := by omega
      have hcentury : c = 1 := by omega
      have hspan : q = 10 := by omega
      omega
    · omega

/-! ## The order of dates -/

/-- A date comes before another: the year decides first, then the month, then the day. -/
def Before (d e : Date) : Prop :=
  d.year < e.year ∨ d.year = e.year ∧ (d.month < e.month ∨ d.month = e.month ∧ d.day < e.day)

/-- The parts of a cycle are in order as their days are. -/
theorem InCycle.lt_of_lt {cycle cycle' : Int} {c' q' a' d' : Nat} (h : InCycle c q a d)
    (h' : InCycle c' q' a' d')
    (hlt : cycle * 146097 + (36524 * c + 1461 * q + 365 * a + d : Nat) <
      cycle' * 146097 + (36524 * c' + 1461 * q' + 365 * a' + d' : Nat)) :
    cycle * 400 + (100 * c + 4 * q + a : Nat) < cycle' * 400 + (100 * c' + 4 * q' + a' : Nat) ∨
      cycle * 400 + (100 * c + 4 * q + a : Nat) = cycle' * 400 + (100 * c' + 4 * q' + a' : Nat) ∧
        d < d' := by
  obtain ⟨hc, hq, ha, hd, hleap⟩ := h
  obtain ⟨hc', hq', ha', hd', hleap'⟩ := h'
  omega

/-- The days of a year are in order until December and from January on. -/
theorem month_lt_or (cycle cycle' : Int) (y y' : Nat) {d d' : Nat} (hlt : d < d')
    (hd' : d' ≤ 365) (hside : 306 ≤ d ∨ d' < 306) :
    (fromMarch cycle y d).month < (fromMarch cycle' y' d').month ∨
      (fromMarch cycle y d).month = (fromMarch cycle' y' d').month ∧
        (fromMarch cycle y d).day < (fromMarch cycle' y' d').day := by
  have hm : monthOf d = (5 * d + 2) / 153 := rfl
  have hm' : monthOf d' = (5 * d' + 2) / 153 := rfl
  dsimp only [fromMarch, daysBeforeMonth]
  rcases hside with hlate | hearly
  · rw [if_neg (by omega), if_neg (by omega)]
    omega
  · rw [if_pos (by omega), if_pos (by omega)]
    omega

/-- Dates counted from March are in order as the years and the days of a year are. -/
theorem before_fromMarch {cycle cycle' : Int} {y y' d d' : Nat} (hd : d ≤ 365) (hd' : d' ≤ 365)
    (hlt : cycle * 400 + y < cycle' * 400 + y' ∨ cycle * 400 + y = cycle' * 400 + y' ∧ d < d') :
    (fromMarch cycle y d).Before (fromMarch cycle' y' d') := by
  rw [Before, year_fromMarch cycle y hd, year_fromMarch cycle' y' hd']
  rcases hlt with hyear | ⟨hyear, hday⟩
  · -- in one and the same year, January and February are behind in counting but come first
    have hmarch : (fromMarch cycle y d).month ≤ 2 ↔ 306 ≤ d := (month_spec d hd).2.2.1
    have hmarch' : (fromMarch cycle' y' d').month ≤ 2 ↔ 306 ≤ d' := (month_spec d' hd').2.2.1
    split <;> split <;> omega
  · by_cases hside : 306 ≤ d ∨ d' < 306
    · have hmonth := month_lt_or cycle cycle' y y' hday hd' hside
      rw [hyear]
      refine .inr ⟨?_, hmonth⟩
      split <;> split <;> omega
    · -- the later day lies beyond the end of December
      rw [if_neg (by omega), if_pos (by omega)]
      omega

theorem before_of_lt {m n : Int} (h : m < n) : (ofDays m).Before (ofDays n) := by
  obtain ⟨cycle, c, q, a, d, hparts, hm, hdate⟩ := exists_ofDays m
  obtain ⟨cycle', c', q', a', d', hparts', hn, hdate'⟩ := exists_ofDays n
  rw [hdate, hdate']
  exact before_fromMarch hparts.day hparts'.day (hparts.lt_of_lt hparts' (by omega))

theorem Before.irrefl (d : Date) : ¬d.Before d := by
  unfold Before
  omega

theorem Before.asymm {d e : Date} (h : d.Before e) : ¬e.Before d := by
  unfold Before at *
  omega

/-- **Dates are in order as their days are.** -/
theorem before_ofDays {m n : Int} : (ofDays m).Before (ofDays n) ↔ m < n := by
  refine ⟨fun h => ?_, before_of_lt⟩
  rcases Int.lt_trichotomy m n with hlt | rfl | hgt
  · exact hlt
  · exact absurd h (Before.irrefl _)
  · exact absurd h (before_of_lt hgt).asymm

end Invigilator.Date
