import Invigilator.Proofs.Text.Numerals
import Invigilator.Proofs.Time.Calendar

/-!
# Written moments are read

The reader of moments allows for much that is never written: blanks, short numbers, offsets. What
is written it reads without loss (`read?_write`), leap seconds included, as long as the moment lies
in the years that the calendar knows.

Every field of a written moment is a numeral of fixed width with a mark behind it that is no digit.
So there is one lemma for each kind of field, about the text that begins with it, and the theorem
goes through the fields in order.
-/

namespace Invigilator.Stamp

open Decimal (padded isDigit value spanDigits)

variable {s : Stamp} {rest : List Char}

/-! ## Fields -/

/-- Behind a numeral there is no further digit. -/
def Ended (rest : List Char) : Prop := ∀ c ∈ rest.head?, isDigit c = false

theorem ended_cons {c : Char} (rest : List Char) (hc : isDigit c = false) : Ended (c :: rest) := by
  rintro d ⟨⟩
  exact hc

theorem someDigits_append {most : Nat} {ds : List Char} (hds : ∀ c ∈ ds, isDigit c = true)
    (hlength : ds.length ≤ most) (hrest : Ended rest) :
    someDigits most (ds ++ rest) = (ds, rest) := by
  induction ds generalizing most with
  | nil =>
    cases most with
    | zero => rfl
    | succ most =>
      cases rest with
      | nil => rfl
      | cons c rest => simp [someDigits, hrest c rfl]
  | cons c ds ih =>
    have hc := hds c List.mem_cons_self
    obtain ⟨most, rfl⟩ : ∃ i, most = i + 1 := by
      rw [List.length_cons] at hlength
      exact ⟨most - 1, by omega⟩
    have hbehind : someDigits most (ds ++ rest) = (ds, rest) :=
      ih (fun d hd => hds d (List.mem_cons_of_mem c hd)) (Nat.le_of_succ_le_succ hlength)
    simp [someDigits, hc, hbehind]

theorem isBlank_of_isDigit {c : Char} (hc : isDigit c = true) : Text.isBlank c = false := by
  simp only [isDigit, Bool.and_eq_true, decide_eq_true_eq] at hc
  simp [Text.isBlank, Text.blankRanges]
  omega

theorem trimStart_cons {c : Char} (rest : List Char) (hc : Text.isBlank c = false) :
    Text.trimStart (c :: rest) = c :: rest := by
  rw [Text.trimStart, List.dropWhile_cons, hc]
  rfl

/-- A numeral begins with a digit. -/
theorem exists_padded (width n : Nat) :
    ∃ c cs, padded width n = c :: cs ∧ isDigit c = true := by
  cases hchars : padded width n with
  | nil => exact absurd (List.append_eq_nil_iff.mp hchars).2 (Decimal.digits_ne_nil n)
  | cons c cs =>
    refine ⟨c, cs, rfl, Decimal.isDigit_of_mem_padded width n c ?_⟩
    rw [hchars]
    exact List.mem_cons_self

theorem trimStart_padded (width n : Nat) (rest : List Char) :
    Text.trimStart (padded width n ++ rest) = padded width n ++ rest := by
  obtain ⟨c, cs, hchars, hc⟩ := exists_padded width n
  rw [hchars]
  exact trimStart_cons (cs ++ rest) (isBlank_of_isDigit hc)

theorem number?_padded {width n : Nat} (hwidth : 0 < width) (hn : n < Nat.pow 10 width)
    (hrest : Ended rest) : number? width (padded width n ++ rest) = some (n, rest) := by
  have hlength : (padded width n).length ≤ width :=
    Nat.le_of_eq (Decimal.length_padded hwidth hn)
  have hdigits := someDigits_append (Decimal.isDigit_of_mem_padded width n) hlength hrest
  have hvalue := Decimal.value_padded width n
  obtain ⟨c, cs, hchars, -⟩ := exists_padded width n
  rw [hchars] at hdigits hvalue
  rw [number?, hchars, hdigits]
  exact congrArg (fun k => some (k, rest)) hvalue

theorem longNumber?_padded (width n : Nat) (hrest : Ended rest) :
    longNumber? (padded width n ++ rest) = some (n, rest) := by
  have hdigits := Decimal.spanDigits_append (Decimal.isDigit_of_mem_padded width n) hrest
  have hvalue := Decimal.value_padded width n
  obtain ⟨c, cs, hchars, -⟩ := exists_padded width n
  rw [hchars] at hdigits hvalue
  rw [longNumber?, hchars, hdigits]
  exact congrArg (fun k => some (k, rest)) hvalue

/-- A field of two digits. -/
theorem part?_padded {n : Nat} (hn : n < 100) (hrest : Ended rest) :
    part? (padded 2 n ++ rest) = some (n, rest) := by
  rw [part?, trimStart_padded]
  exact number?_padded (by decide) hn hrest

theorem mark?_cons {c : Char} (rest : List Char) (hc : Text.isBlank c = false) :
    mark? c (c :: rest) = some rest := by
  rw [mark?, trimStart_cons rest hc]
  exact if_pos rfl

theorem separator?_cons (rest : List Char) : separator? ('T' :: rest) = some rest := rfl

/-- A year, with its sign if it has one. -/
theorem year?_writeYear (y : Int) (hrest : Ended rest) :
    year? (writeYear y ++ rest) = some (y, rest) := by
  unfold writeYear
  by_cases hplain : 0 ≤ y ∧ y ≤ 9999
  · have hyear : (y.toNat : Int) = y := Int.toNat_of_nonneg hplain.1
    have hsmall : y.toNat < Nat.pow 10 4 := by
      show y.toNat < 10000
      omega
    have hnumber := number?_padded (by decide) hsmall hrest
    obtain ⟨c, cs, hchars, hc⟩ := exists_padded 4 y.toNat
    have hminus : c ≠ '-' := fun h => absurd hc (by rw [h]; decide)
    have hplus : c ≠ '+' := fun h => absurd hc (by rw [h]; decide)
    rw [if_pos hplain, year?, trimStart_padded]
    rw [hchars, List.cons_append] at hnumber ⊢
    split
    · rename_i heq
      exact absurd (List.cons.inj heq).1 hminus
    · rename_i heq
      exact absurd (List.cons.inj heq).1 hplus
    · rw [hnumber]
      exact congrArg (fun k => some (k, rest)) hyear
  rw [if_neg hplain]
  by_cases hnegative : y < 0
  · have hyear : -(y.natAbs : Int) = y := by omega
    rw [if_pos hnegative, List.cons_append, year?, trimStart_cons _ (by decide)]
    show (longNumber? (padded 4 y.natAbs ++ rest)).map _ = _
    rw [longNumber?_padded 4 y.natAbs hrest]
    exact congrArg (fun k => some (k, rest)) hyear
  · have hyear : (y.toNat : Int) = y := by omega
    rw [if_neg hnegative, List.cons_append, year?, trimStart_cons _ (by decide)]
    show (longNumber? (padded 4 y.toNat ++ rest)).map _ = _
    rw [longNumber?_padded 4 y.toNat hrest]
    exact congrArg (fun k => some (k, rest)) hyear

/-- Decimals of a second, of any number up to nine. -/
theorem fraction?_padded {width n : Nat} (hwidth : 0 < width) (hmost : width ≤ 9)
    (hn : n < Nat.pow 10 width) (hrest : Ended rest) :
    fraction? ('.' :: padded width n ++ rest) = some (n * Nat.pow 10 (9 - width), rest) := by
  have hlength := Decimal.length_padded hwidth hn
  have hdigits := someDigits_append (Decimal.isDigit_of_mem_padded width n)
    (Nat.le_trans (Nat.le_of_eq hlength) hmost) hrest
  have hspan : spanDigits ([] ++ rest) = ([], rest) :=
    Decimal.spanDigits_append (fun c hc => absurd hc List.not_mem_nil) hrest
  have hvalue := Decimal.value_padded width n
  obtain ⟨c, cs, hchars, -⟩ := exists_padded width n
  rw [hchars] at hdigits hlength hvalue
  rw [hchars, List.cons_append, fraction?, hdigits]
  dsimp only
  rw [hlength, hvalue]
  exact congrArg (fun behind => some (n * Nat.pow 10 (9 - width), behind.2)) hspan

/-- The decimals of a second say how many nanoseconds it has gone on. -/
theorem fraction?_writeFraction {n : Nat} (hn : n < nanosPerSecond) (hrest : Ended rest)
    (hdot : rest.head? ≠ some '.') : fraction? (writeFraction n ++ rest) = some (n, rest) := by
  have hsmall : n < 1000000000 := hn
  unfold writeFraction
  split
  · rename_i hzero
    rw [hzero, List.nil_append]
    unfold fraction?
    split
    · exact absurd rfl hdot
    · rfl
  split
  · rw [fraction?_padded (by decide) (by decide) (show n / 1000000 < 1000 by omega) hrest]
    show some (n / 1000000 * 1000000, rest) = _
    rw [Nat.div_mul_cancel (Nat.dvd_of_mod_eq_zero ‹_›)]
  split
  · rw [fraction?_padded (by decide) (by decide) (show n / 1000 < 1000000 by omega) hrest]
    show some (n / 1000 * 1000, rest) = _
    rw [Nat.div_mul_cancel (Nat.dvd_of_mod_eq_zero ‹_›)]
  · rw [fraction?_padded (by decide) (by decide) hsmall hrest]
    show some (n * 1, rest) = _
    rw [Nat.mul_one]

theorem ended_writeFraction (n : Nat) (hrest : Ended rest) : Ended (writeFraction n ++ rest) := by
  unfold writeFraction
  split
  · exact hrest
  split
  · exact ended_cons _ rfl
  split
  · exact ended_cons _ rfl
  · exact ended_cons _ rfl

/-! ## Moments -/

/-- A moment of the years that the calendar knows. -/
structure Datable (s : Stamp) : Prop where
  valid : s.Valid
  first : firstDay ≤ s.day
  last : s.day ≤ lastDay

instance (s : Stamp) : Decidable s.Datable :=
  decidable_of_iff ((s.second < 86400 ∧ s.nano < 2 * nanosPerSecond ∧
      (nanosPerSecond ≤ s.nano → s.second % 60 = 59)) ∧ firstDay ≤ s.day ∧ s.day ≤ lastDay)
    ⟨fun h => ⟨h.1, h.2.1, h.2.2⟩, fun h => ⟨h.valid, h.first, h.last⟩⟩

/-- The calendar knows all moments of the years with at most four digits. -/
theorem Valid.datable (hs : s.Valid) (hfirst : 0 ≤ (Date.ofDays s.day).year)
    (hlast : (Date.ofDays s.day).year ≤ 9999) : s.Datable := by
  have hfirstDay : firstDay = -96465292 := by decide
  have hlastDay : lastDay = 95026236 := by decide
  -- a year belongs to a cycle of days that is not far away
  have hcycle : (Date.ofDays s.day).year / 400 - 1 ≤ (s.day + 719468) / 146097 ∧
      (s.day + 719468) / 146097 ≤ (Date.ofDays s.day).year / 400 + 1 := by
    simp only [Date.ofDays]
    split <;> omega
  refine ⟨hs, ?_, ?_⟩
  · rw [hfirstDay]
    omega
  · rw [hlastDay]
    omega

/-- The fields of a moment are the moment. -/
theorem ofFields?_write (hs : s.Datable) :
    ofFields? (.ofDays s.day) (s.second / 3600) (s.second / 60 % 60)
      (s.second % 60 + if s.isLeap then 1 else 0)
      (if s.isLeap then s.nano - nanosPerSecond else s.nano) 0 = some s := by
  obtain ⟨⟨hsecond, hnano, hleap⟩, hfirst, hlast⟩ := hs
  obtain ⟨hyear, hyear'⟩ := Date.year_ofDays hfirst hlast
  have hfields : firstYear ≤ (Date.ofDays s.day).year ∧ (Date.ofDays s.day).year ≤ lastYear ∧
      (Date.ofDays s.day).exists? ∧ s.second / 3600 ≤ 23 ∧ s.second / 60 % 60 ≤ 59 ∧
      (s.second % 60 + if s.isLeap then 1 else 0) ≤ 60 := by
    refine ⟨hyear, hyear', Date.exists?_ofDays s.day, by omega, by omega, ?_⟩
    split <;> omega
  -- the sixtieth second of a minute is the one before it, with a second's nanoseconds more
  have hunits : (if (s.second % 60 + if s.isLeap then 1 else 0) = 60 then
      (59, (if s.isLeap then s.nano - nanosPerSecond else s.nano) + nanosPerSecond)
      else (s.second % 60 + if s.isLeap then 1 else 0,
        if s.isLeap then s.nano - nanosPerSecond else s.nano)) = (s.second % 60, s.nano) := by
    by_cases hl : s.isLeap = true
    · have hnano' : nanosPerSecond ≤ s.nano := by simpa [isLeap] using hl
      have hlast' := hleap hnano'
      rw [if_pos hl, if_pos hl, if_pos (by omega), hlast', Nat.sub_add_cancel hnano']
    · rw [if_neg hl, if_neg hl, if_neg (by omega), Nat.add_zero]
  have htotal : s.day * 86400 +
      (s.second / 3600 * 3600 + s.second / 60 % 60 * 60 + s.second % 60 : Nat) - 0 =
        s.day * 86400 + s.second := by omega
  have hday : (s.day * 86400 + (s.second : Int)) / 86400 = s.day := by omega
  have hrest : ((s.day * 86400 + (s.second : Int)) % 86400).toNat = s.second := by omega
  unfold ofFields?
  rw [if_pos hfields, hunits]
  dsimp only
  rw [Date.toDays_ofDays, htotal, hday, hrest, if_pos ⟨hfirst, hlast⟩]

/-- The characters of a written moment, up to the zone. -/
def fieldChars (s : Stamp) : List Char :=
  writeYear (Date.ofDays s.day).year ++ '-' :: Decimal.padded 2 (Date.ofDays s.day).month ++
    '-' :: Decimal.padded 2 (Date.ofDays s.day).day ++
    'T' :: Decimal.padded 2 (s.second / 3600) ++ ':' :: Decimal.padded 2 (s.second / 60 % 60) ++
    ':' :: Decimal.padded 2 (s.second % 60 + if s.isLeap then 1 else 0) ++
    writeFraction (if s.isLeap then s.nano - nanosPerSecond else s.nano)

/-- A way to write that a moment is in UTC. -/
structure Utc (zone : List Char) : Prop where
  ended : Ended zone
  noFraction : zone.head? ≠ some '.'
  offset : offset? (Text.trimStart zone) = some (0, [])

/-- The fields of a moment are read from its characters, however the zone is written. -/
theorem readChars?_fieldChars (hs : s.Datable) {zone : List Char} (hzone : Utc zone) :
    readChars? (s.fieldChars ++ zone) = some s := by
  have hfields := ofFields?_write hs
  obtain ⟨hsecond, hnano, -⟩ := hs.valid
  obtain ⟨hmonth, hday⟩ := Date.ofDays_fields_le s.day
  have hunit : (s.second % 60 + if s.isLeap then 1 else 0) < 100 := by split <;> omega
  have hdecimals : (if s.isLeap then s.nano - nanosPerSecond else s.nano) < nanosPerSecond := by
    by_cases hl : s.isLeap = true
    · rw [if_pos hl]
      omega
    · have hsmall : ¬nanosPerSecond ≤ s.nano := by simpa [isLeap] using hl
      rw [if_neg hl]
      omega
  rw [readChars?, fieldChars]
  simp only [List.append_assoc, List.cons_append]
  -- the fields in order, each up to the mark behind it
  rw [year?_writeYear _ (ended_cons _ rfl)]
  dsimp only [Option.bind_eq_bind, Option.bind_some]
  rw [mark?_cons _ rfl, Option.bind_some, part?_padded (by omega) (ended_cons _ rfl)]
  dsimp only [Option.bind_some]
  rw [mark?_cons _ rfl, Option.bind_some, part?_padded (by omega) (ended_cons _ rfl)]
  dsimp only [Option.bind_some]
  rw [separator?_cons, Option.bind_some, part?_padded (by omega) (ended_cons _ rfl)]
  dsimp only [Option.bind_some]
  rw [mark?_cons _ rfl, Option.bind_some, part?_padded (by omega) (ended_cons _ rfl)]
  dsimp only [Option.bind_some]
  rw [mark?_cons _ rfl, Option.bind_some, part?_padded hunit (ended_writeFraction _ hzone.ended)]
  dsimp only [Option.bind_some]
  rw [fraction?_writeFraction hdecimals hzone.ended hzone.noFraction]
  dsimp only [Option.bind_some]
  rw [hzone.offset]
  exact hfields

/-- **A written moment is read as it was.** -/
theorem read?_write (hs : s.Datable) : read? s.write = some s := by
  have hchars : s.writeChars = s.fieldChars ++ ['Z'] := rfl
  rw [read?, write, String.toList_ofList, hchars]
  exact readChars?_fieldChars hs ⟨ended_cons [] rfl, by decide, by decide⟩

/-- **So is a moment that is written with its offset in figures.** -/
theorem read?_writeWithOffset (hs : s.Datable) : read? s.writeWithOffset = some s := by
  have hchars : s.writeChars = s.fieldChars ++ ['Z'] := rfl
  rw [read?, writeWithOffset, String.toList_ofList, hchars, List.dropLast_concat]
  exact readChars?_fieldChars hs ⟨ended_cons _ rfl, by decide, by decide⟩

end Invigilator.Stamp
