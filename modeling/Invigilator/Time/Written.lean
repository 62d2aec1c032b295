import Invigilator.Json.Basic
import Invigilator.Text.Blank
import Invigilator.Text.Decimal
import Invigilator.Time.Calendar
import Invigilator.Time.Stamp

/-!
# Written moments

A moment is written in one way: in UTC, with as few of 0, 3, 6 or 9 decimals as are exact, and
`Z` behind. It is read from many: with any offset, with blanks around the numbers, with fewer
digits, and with the sixtieth second of a minute for a leap second.
-/

namespace Invigilator.Stamp

/-! ## Writing -/

/-- The year as written: four digits, and beyond them a sign. -/
def writeYear (y : Int) : List Char :=
  if 0 ≤ y ∧ y ≤ 9999 then Decimal.padded 4 y.toNat
  else if y < 0 then '-' :: Decimal.padded 4 y.natAbs
  else '+' :: Decimal.padded 4 y.toNat

/-- The decimals of a second, with the point in front: the fewest of 0, 3, 6 or 9 that are exact. -/
def writeFraction (nano : Nat) : List Char :=
  if nano = 0 then []
  else if nano % 1000000 = 0 then '.' :: Decimal.padded 3 (nano / 1000000)
  else if nano % 1000 = 0 then '.' :: Decimal.padded 6 (nano / 1000)
  else '.' :: Decimal.padded 9 nano

/-- The characters of a written moment. -/
def writeChars (s : Stamp) : List Char :=
  let date := Date.ofDays s.day
  let leap := s.isLeap
  let second := s.second % 60 + if leap then 1 else 0
  let nano := if leap then s.nano - nanosPerSecond else s.nano
  writeYear date.year ++ '-' :: Decimal.padded 2 date.month ++ '-' :: Decimal.padded 2 date.day ++
    'T' :: Decimal.padded 2 (s.second / 3600) ++ ':' :: Decimal.padded 2 (s.second / 60 % 60) ++
    ':' :: Decimal.padded 2 second ++ writeFraction nano ++ ['Z']

/-- The text of a moment. -/
def write (s : Stamp) : String := String.ofList s.writeChars

/-- The text of a moment with the offset from UTC in figures. -/
def writeWithOffset (s : Stamp) : String :=
  String.ofList (s.writeChars.dropLast ++ "+00:00".toList)

/-! ## Reading -/

/-- The digits at the front of a text, at most so many, and what follows them. -/
def someDigits : Nat → List Char → List Char × List Char
  | 0, cs => ([], cs)
  | _ + 1, [] => ([], [])
  | n + 1, c :: rest =>
    if Decimal.isDigit c then
      let (ds, behind) := someDigits n rest
      (c :: ds, behind)
    else ([], c :: rest)

/-- A number of at most so many digits, and what follows it. -/
def number? (most : Nat) (cs : List Char) : Option (Nat × List Char) :=
  match someDigits most cs with
  | ([], _) => none
  | (ds, behind) => some (Decimal.value ds, behind)

/-- A number of any length, and what follows it. -/
def longNumber? (cs : List Char) : Option (Nat × List Char) :=
  match Decimal.spanDigits cs with
  | ([], _) => none
  | (ds, behind) => some (Decimal.value ds, behind)

/-- A two-digit number behind blanks. -/
def part? (cs : List Char) : Option (Nat × List Char) := number? 2 (Text.trimStart cs)

/-- A mark, behind blanks. -/
def mark? (c : Char) (cs : List Char) : Option (List Char) :=
  match Text.trimStart cs with
  | d :: rest => if d = c then some rest else none
  | [] => none

/-- The year: up to four digits, or a sign and any number of digits. -/
def year? (cs : List Char) : Option (Int × List Char) :=
  match Text.trimStart cs with
  | '-' :: rest => (longNumber? rest).map fun (n, behind) => (-(n : Int), behind)
  | '+' :: rest => (longNumber? rest).map fun (n, behind) => ((n : Int), behind)
  | rest => (number? 4 rest).map fun (n, behind) => ((n : Int), behind)

/-- The nanoseconds of a decimal fraction: nine digits count, any others are passed over. -/
def fraction? : List Char → Option (Nat × List Char)
  | '.' :: rest =>
    match someDigits 9 rest with
    | ([], _) => none
    | (ds, behind) =>
      some (Decimal.value ds * Nat.pow 10 (9 - ds.length), (Decimal.spanDigits behind).2)
  | rest => some (0, rest)

/-- The two digits at the very front of a text. -/
def twoDigits? : List Char → Option (Nat × List Char)
  | a :: b :: rest =>
    if Decimal.isDigit a ∧ Decimal.isDigit b then some (Decimal.value [a, b], rest) else none
  | _ => none

/-- The offset of a signed time zone, in seconds. -/
def signedOffset? (sign : Int) (cs : List Char) : Option (Int × List Char) := do
  let (hours, rest) ← twoDigits? cs
  let (minutes, rest) ← twoDigits? (rest.dropWhile fun c => c = ':' || Text.isBlank c)
  if minutes ≤ 59 ∧ hours ≤ 23 then some (sign * (hours * 3600 + minutes * 60), rest) else none

/-- The offset from UTC, in seconds: `Z`, `UTC`, or a sign with hours and minutes. -/
def offset? (cs : List Char) : Option (Int × List Char) :=
  let zulu : Option (Int × List Char) :=
    match cs with
    | 'Z' :: rest => some (0, rest)
    | 'z' :: rest => some (0, rest)
    | '+' :: rest => signedOffset? 1 rest
    | '-' :: rest => signedOffset? (-1) rest
    | '\u2212' :: rest => signedOffset? (-1) rest
    | _ => none
  match cs with
  | u :: t :: c :: rest =>
    if u.toLower = 'u' ∧ t.toLower = 't' ∧ c.toLower = 'c' then some (0, rest) else zulu
  | _ => zulu

/-- The character between date and time. -/
def separator? : List Char → Option (List Char)
  | 'T' :: rest => some rest
  | 't' :: rest => some rest
  | ' ' :: rest => some rest
  | _ => none

/-- The first and the last year a moment can lie in. -/
def firstYear : Int := -262143

def lastYear : Int := 262142

/-- The days, counted from 1970-01-01, that moments can lie on. -/
def firstDay : Int := Date.toDays ⟨firstYear, 1, 1⟩

def lastDay : Int := Date.toDays ⟨lastYear, 12, 31⟩

/--
The moment of a date, a time of day and an offset, if they exist. The date must be in range both
where it was written and in UTC.
-/
def ofFields? (date : Date) (hour minute second nano : Nat) (offset : Int) : Option Stamp :=
  if firstYear ≤ date.year ∧ date.year ≤ lastYear ∧ date.exists? ∧ hour ≤ 23 ∧ minute ≤ 59 ∧
      second ≤ 60 then
    let (second, nano) := if second = 60 then (59, nano + nanosPerSecond) else (second, nano)
    let total : Int := date.toDays * 86400 + (hour * 3600 + minute * 60 + second : Nat) - offset
    let day := total / 86400
    if firstDay ≤ day ∧ day ≤ lastDay then some ⟨day, (total % 86400).toNat, nano⟩ else none
  else none

/-- Reads a written moment. -/
def readChars? (cs : List Char) : Option Stamp := do
  let (year, cs) ← year? cs
  let cs ← mark? '-' cs
  let (month, cs) ← part? cs
  let cs ← mark? '-' cs
  let (day, cs) ← part? cs
  let cs ← separator? cs
  let (hour, cs) ← part? cs
  let cs ← mark? ':' cs
  let (minute, cs) ← part? cs
  let cs ← mark? ':' cs
  let (second, cs) ← part? cs
  let (nano, cs) ← fraction? cs
  let (offset, cs) ← offset? (Text.trimStart cs)
  if (Text.trimStart cs).isEmpty then ofFields? ⟨year, month, day⟩ hour minute second nano offset
  else none

/-- Reads a written moment. -/
def read? (text : String) : Option Stamp := readChars? text.toList

/-- A moment as a JSON value. -/
def toJson (s : Stamp) : Json := .text s.write

/-- The moment of a JSON value. -/
def ofJson? : Json → Option Stamp
  | .text s => read? s
  | _ => none

end Invigilator.Stamp
