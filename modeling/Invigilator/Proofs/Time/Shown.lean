import Invigilator.Proofs.Text.Numerals
import Invigilator.Service.Practice
import Mathlib.Data.Nat.Basic
import Mathlib.Order.Monotone.Defs

/-!
# Reading shown times

A shown time is a list of numbers with their units, and can be read for what it is. The exam clock
reads as the time that it was given, and so no two times are shown alike. The wait for a life reads
as no more than the wait is, and as less than a minute short of it: only where it shows hours are
the seconds dropped, and nowhere is a part of a second or of a minute rounded up.

The three shapes of a shown time begin at the first unit that is not zero. They are told apart here
once, as lists of parts; that a list of parts is read from its text is one lemma for all of them.
-/

namespace Invigilator.Shown

/-- The units that times are shown in. -/
inductive ClockUnit where
  | hour
  | minute
  | second
deriving DecidableEq, Repr

namespace ClockUnit

/-- The letter behind a number of the unit. -/
def mark : ClockUnit → Char
  | hour => 'h'
  | minute => 'm'
  | second => 's'

def ofMark? : Char → Option ClockUnit
  | 'h' => some hour
  | 'm' => some minute
  | 's' => some second
  | _ => none

/-- The seconds in a unit. -/
def seconds : ClockUnit → Nat
  | hour => 3600
  | minute => 60
  | second => 1

theorem ofMark?_mark (u : ClockUnit) : ofMark? u.mark = some u := by
  cases u <;> rfl

theorem mark_not_digit (u : ClockUnit) : Decimal.isDigit u.mark = false := by
  cases u <;> rfl

theorem mark_ne_space (u : ClockUnit) : u.mark ≠ ' ' := by
  cases u <;> decide

end ClockUnit

/-- A number of one unit. -/
structure Part where
  amount : Nat
  unit : ClockUnit
deriving DecidableEq, Repr

/-! ## Reading -/

/-- Reads a number with a unit behind it. -/
def readPart? (cs : List Char) : Option Part :=
  match Decimal.spanDigits cs with
  | (ds, [mark]) => do
    let amount ← Decimal.read? ds
    let unit ← ClockUnit.ofMark? mark
    pure ⟨amount, unit⟩
  | _ => none

/-- Reads numbers with their units, one space between any two. -/
def readParts? (text : String) : Option (List Part) :=
  (text.toList.splitOn ' ').mapM readPart?

/-- The seconds that parts come to; a unit that is absent adds none. -/
def total : List Part → Nat
  | [] => 0
  | p :: rest => p.amount * p.unit.seconds + total rest

/-- Reads a shown time in seconds. -/
def read? (text : String) : Option Nat :=
  (readParts? text).map total

/-- Parts as a clock shows them. -/
structure Proper (parts : List Part) : Prop where
  falling : parts.Pairwise fun p q => q.unit.seconds < p.unit.seconds
  carried : ∀ p ∈ parts, p.unit ≠ .hour → p.amount < 60
  front : ∀ p ∈ parts.head?, p.amount = 0 → parts = [⟨0, .second⟩]

/-- The text of a part. -/
def Part.chars (p : Part) : List Char := part p.amount p.unit.mark

/-- The text of parts. -/
def spell (parts : List Part) : List Char := [' '].intercalate (parts.map Part.chars)

theorem Part.space_notMem_chars (p : Part) : ' ' ∉ p.chars := by
  intro hspace
  rcases List.mem_append.mp hspace with hdigit | hmark
  · exact absurd (Decimal.isDigit_of_mem_digits p.amount ' ' hdigit) (by decide)
  · exact p.unit.mark_ne_space (List.mem_singleton.mp hmark).symm

theorem readPart?_chars (p : Part) : readPart? p.chars = some p := by
  have hmark : ∀ c ∈ [p.unit.mark].head?, Decimal.isDigit c = false := by
    rintro c ⟨⟩
    exact p.unit.mark_not_digit
  have hspan := Decimal.spanDigits_append (Decimal.isDigit_of_mem_digits p.amount) hmark
  rw [readPart?, Part.chars, part, hspan]
  dsimp only
  rw [Decimal.read?_digits, ClockUnit.ofMark?_mark]
  rfl

theorem mapM_readPart?_chars (parts : List Part) :
    (parts.map Part.chars).mapM readPart? = some parts := by
  induction parts with
  | nil => rfl
  | cons p parts ih =>
    rw [List.map_cons, List.mapM_cons, readPart?_chars, ih]
    rfl

/-- Parts are read from their text. -/
theorem readParts?_spell {parts : List Part} (h : parts ≠ []) :
    readParts? (String.ofList (spell parts)) = some parts := by
  have hsplit : (spell parts).splitOn ' ' = parts.map Part.chars := by
    refine List.splitOn_intercalate ' ' (fun cs hcs => ?_) (mt List.map_eq_nil_iff.mp h)
    obtain ⟨p, -, rfl⟩ := List.mem_map.mp hcs
    exact p.space_notMem_chars
  rw [readParts?, String.toList_ofList, hsplit, mapM_readPart?_chars]

/-! ## The exam clock -/

/-- The parts of the exam clock. -/
def examParts (n : Nat) : List Part :=
  if 0 < n / 3600 then [⟨n / 3600, .hour⟩, ⟨n % 3600 / 60, .minute⟩, ⟨n % 60, .second⟩]
  else if 0 < n % 3600 / 60 then [⟨n % 3600 / 60, .minute⟩, ⟨n % 60, .second⟩]
  else [⟨n % 60, .second⟩]

theorem examTimeChars_eq (n : Nat) : examTimeChars n = spell (examParts n) := by
  rw [examTimeChars, examParts]
  split <;> [skip; split] <;> simp [spell, Part.chars, ClockUnit.mark]

theorem examParts_ne_nil (n : Nat) : examParts n ≠ [] := by
  rw [examParts]
  split <;> [skip; split] <;> exact List.cons_ne_nil _ _

theorem total_examParts (n : Nat) : total (examParts n) = n := by
  rw [examParts]
  split <;> [skip; split] <;> simp [total, ClockUnit.seconds] <;> omega

theorem proper_examParts (n : Nat) : Proper (examParts n) := by
  have hminutes : n % 3600 / 60 < 60 := by omega
  have hseconds : n % 60 < 60 := Nat.mod_lt n (by decide)
  rw [examParts]
  split
  case isTrue hhours =>
    exact ⟨by simp [ClockUnit.seconds], by simp [hminutes, hseconds], by simp; omega⟩
  case isFalse =>
    split
    case isTrue hmore =>
      exact ⟨by simp [ClockUnit.seconds], by simp [hminutes, hseconds], by simp; omega⟩
    case isFalse =>
      exact ⟨by simp, by simp [hseconds], by simp⟩

/-- The exam clock is read as its parts. -/
theorem readParts?_examTime (n : Nat) : readParts? (examTime n) = some (examParts n) := by
  rw [examTime, examTimeChars_eq, readParts?_spell (examParts_ne_nil n)]

/-- The exam clock is read as the time that it was given. -/
theorem read?_examTime (n : Nat) : read? (examTime n) = some n := by
  rw [read?, readParts?_examTime, Option.map_some, total_examParts]

/-! ## The wait for a life -/

/-- The parts of the wait for a life. -/
def waitParts (n : Nat) : List Part :=
  if 0 < n / 3600 then [⟨n / 3600, .hour⟩, ⟨n % 3600 / 60, .minute⟩] else examParts n

/-- The seconds that the wait for a life shows. -/
def waitShown (n : Nat) : Nat := if n < 3600 then n else n / 60 * 60

theorem waitChars_eq (n : Nat) : waitChars n = spell (waitParts n) := by
  rw [waitChars, waitParts]
  split
  · simp [spell, Part.chars, ClockUnit.mark]
  · rename_i hhours
    rw [← examTimeChars_eq, examTimeChars]
    simp only [if_neg hhours]

theorem waitParts_ne_nil (n : Nat) : waitParts n ≠ [] := by
  rw [waitParts]
  split
  · exact List.cons_ne_nil _ _
  · exact examParts_ne_nil n

theorem total_waitParts (n : Nat) : total (waitParts n) = waitShown n := by
  rw [waitParts, waitShown]
  split
  · rw [if_neg (by omega)]
    simp [total, ClockUnit.seconds]
    omega
  · rw [if_pos (by omega), total_examParts]

theorem waitShown_le (n : Nat) : waitShown n ≤ n := by
  rw [waitShown]
  split <;> omega

theorem lt_waitShown_add (n : Nat) : n < waitShown n + 60 := by
  rw [waitShown]
  split <;> omega

theorem waitShown_of_lt {n : Nat} (h : n < 3600) : waitShown n = n := if_pos h

theorem monotone_waitShown : Monotone waitShown := by
  intro m n hle
  rw [waitShown, waitShown]
  split <;> split <;> omega

/-- The wait for a life is read as what it shows of its whole seconds. -/
theorem read?_wait (ms : Int) : read? (wait ms) = some (waitShown (secondsOfMillis ms)) := by
  rw [read?, wait, waitChars_eq, readParts?_spell (waitParts_ne_nil _), Option.map_some,
    total_waitParts]

/-! ## Spans of time -/

/-- A span that has passed counts for no units of time, any other for those that it is made of. -/
theorem toNat_whole (ns : Int) (unit : Nat) :
    (LivesReport.whole ns unit).toNat = ns.toNat / unit := by
  cases ns with
  | ofNat n => rfl
  | negSucc n => exact (Int.toNat_neg_natCast _).trans (Nat.zero_div unit).symm

/-- The whole seconds of the whole milliseconds of a span are its whole seconds. -/
theorem secondsOfMillis_whole (ns : Int) :
    secondsOfMillis (LivesReport.whole ns nanosPerMilli) = ns.toNat / nanosPerSecond := by
  have hseconds : ∀ ms, secondsOfMillis ms = ms.toNat / 1000 := fun ms => toNat_whole ms 1000
  rw [hseconds, toNat_whole, Nat.div_div_eq_div_mul]
  rfl

/-- **Shown times can be read back.** The exam clock is read as parts that a clock shows and that
come to the time it was given; so no two times are shown alike. The wait for a life is read as a
time that depends on its whole seconds only, does not fall as they rise, is at most these and less
than a minute short of them, and is all of them below an hour. So callers who wait for a life are
never told to wait longer than they must, and not longer than the seconds beside the text say. -/
theorem shown_times_read_back :
    (∀ n : Nat, ∃ parts, readParts? (examTime n) = some parts ∧ Proper parts ∧ total parts = n) ∧
    Function.Injective examTime ∧
    (∃ shown : Nat → Nat, Monotone shown ∧
      (∀ ms : Int, read? (wait ms) = some (shown (max 0 (ms.tdiv 1000)).toNat)) ∧
      ∀ v, shown v ≤ v ∧ v < shown v + 60 ∧ (v < 3600 → shown v = v)) ∧
    ∀ (lives most : Nat) (ns : Int), ∃ (seconds : Int) (text : String) (r : Nat),
      LivesReport.toJson ⟨lives, most, some ns⟩ =
        .object [("lives", .nat lives), ("max_lives", .nat most),
          ("next_restore_seconds", .int seconds), ("next_restore_in", .text text)] ∧
      read? text = some r ∧ (r : Int) ≤ max 0 seconds ∧ (r * nanosPerSecond : Int) ≤ max 0 ns := by
  refine ⟨fun n => ⟨examParts n, readParts?_examTime n, proper_examParts n, total_examParts n⟩,
    fun m n hsame => ?_, ⟨waitShown, monotone_waitShown, fun ms => ?_, fun v => ?_⟩,
    fun lives most ns => ⟨LivesReport.whole ns nanosPerSecond, _, _, rfl, read?_wait _, ?_, ?_⟩⟩
  · have hread := read?_examTime m
    rw [hsame, read?_examTime] at hread
    exact (Option.some.inj hread).symm
  · have hfloor : (max 0 (ms.tdiv 1000)).toNat = secondsOfMillis ms := by
      rw [secondsOfMillis]
      omega
    rw [hfloor, read?_wait]
  · exact ⟨waitShown_le v, lt_waitShown_add v, waitShown_of_lt⟩
  · have hshown := waitShown_le (secondsOfMillis (LivesReport.whole ns nanosPerMilli))
    have hseconds := toNat_whole ns nanosPerSecond
    rw [secondsOfMillis_whole] at hshown ⊢
    omega
  · have hshown := waitShown_le (secondsOfMillis (LivesReport.whole ns nanosPerMilli))
    have hspan := Nat.div_mul_le_self ns.toNat nanosPerSecond
    rw [secondsOfMillis_whole] at hshown ⊢
    have hnanos := (Nat.mul_le_mul_right nanosPerSecond hshown).trans hspan
    omega

end Invigilator.Shown
