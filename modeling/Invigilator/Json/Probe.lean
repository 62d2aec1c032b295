import Invigilator.Json.Complaint
import Invigilator.Json.Held
import Invigilator.Json.Token
import Invigilator.Text.Utf8

/-!
# Probes

A probe goes over the bytes of a text from left to right and complains at the first thing that is
wrong. It says more than a reader and keeps less: it is run over texts that could not be read, to
tell why.

Loops take `fuel`, a bound on their rounds; every round goes on by a byte at least, so the length
of the text is enough.
-/

namespace Invigilator.Json

/-- A spot in a text and the bytes that lie ahead. -/
structure Cursor where
  spot : Spot
  ahead : List UInt8

/-- The cursor behind the next byte. -/
def Cursor.eat (c : Cursor) : Cursor :=
  match c.ahead with
  | [] => c
  | b :: rest => ⟨c.spot.behind b, rest⟩

/-- Takes bytes as long as they are of a kind, onto those already taken, last one first. -/
def Cursor.span (keep : Char → Bool) (taken : List Char) (spot : Spot) :
    List UInt8 → List Char × Cursor
  | [] => (taken, ⟨spot, []⟩)
  | b :: rest =>
    let c := Char.ofNat b.toNat
    if keep c then Cursor.span keep (c :: taken) (spot.behind b) rest
    else (taken, ⟨spot, b :: rest⟩)

/-- Leaves out bytes as long as they are of a kind. -/
def Cursor.drop (keep : Char → Bool) (spot : Spot) : List UInt8 → Cursor
  | [] => ⟨spot, []⟩
  | b :: rest =>
    if keep (Char.ofNat b.toNat) then Cursor.drop keep (spot.behind b) rest else ⟨spot, b :: rest⟩

abbrev Probe := ExceptT Complaint (StateM Cursor)

namespace Probe

variable {α : Type}

/-- The next byte, as the character of its number. -/
def peek : Probe (Option Char) := do
  return (← get).ahead.head?.map fun b => Char.ofNat b.toNat

def eat : Probe Unit := modify Cursor.eat

/-- Takes the next byte. -/
def next : Probe (Option Char) := do
  let c ← peek
  eat
  return c

/-- Complains of what has just been read. -/
def failHere (b : Break) : Probe α := do throw ⟨.syntactic b, some (← get).spot, []⟩

/-- Complains of what comes next. -/
def failAhead (b : Break) : Probe α := do throw ⟨.syntactic b, some (← get).eat.spot, []⟩

/-- Complains of a part of the value. -/
def within (step : Step) (p : Probe α) : Probe α := tryCatch p fun c => throw (c.within step)

/-- The next byte that is no blank. -/
def peekSolid : Probe (Option Char) := do
  modify fun c => Cursor.drop isSpace c.spot c.ahead
  peek

/-- The byte with which a value starts. -/
def peekValue : Probe Char := do
  match ← peekSolid with
  | some c => return c
  | none => failAhead .endAtValue

/-- The rest of a bare word. -/
def word : List Char → Probe Unit
  | [] => return
  | c :: rest => do
    match ← next with
    | none => failHere .endAtValue
    | some found => if found = c then word rest else failHere .unknownWord

/-! ## Strings -/

/-- Where a probe is in a string: escapes are gathered digit by digit, unless one is none. -/
inductive Within where
  | plain
  | escape
  | hex (digits : Nat) (value : Option Nat)
  | half (high : Nat)
  | halfEscape (high : Nat)
  | halfHex (high digits : Nat) (value : Option Nat)

/-- How a byte of a string goes on: in the string with some bytes of its text, at its end, or with
a break. -/
inductive Move where
  | stay (inside : Within) (bytes : List UInt8)
  | close
  | fail (b : Break)
  /-- The byte is left where it is. -/
  | failBefore (b : Break)

/-- The bytes of a character, last one first. -/
def bytesOf (c : Char) : List UInt8 := (String.ofList [c]).toUTF8.toList.reverse

/-- A digit more of a number, unless it is none. -/
def addHex (value : Option Nat) (b : UInt8) : Option Nat := do
  return (← value) * 16 + (← hexValue? (Char.ofNat b.toNat))

/--
A byte of a string. A string whose text is wanted must hold whole characters; one that is skipped
need not, and its controls are complained of before they are taken.
-/
def Within.move (wanted : Bool) (b : UInt8) : Within → Move
  | .plain =>
    if b = 34 then .close
    else if b = 92 then .stay .escape []
    else if b < 32 then (if wanted then .fail .control else .failBefore .control)
    else .stay .plain [b]
  | .escape =>
    if b = 117 then .stay (.hex 0 (some 0)) []
    else
      match plainEscape? (Char.ofNat b.toNat) with
      | some c => .stay .plain (bytesOf c)
      | none => .fail .badEscape
  | .hex digits value =>
    let value := addHex value b
    if digits < 3 then .stay (.hex (digits + 1) value) []
    else
      match value with
      | none => .fail .badEscape
      | some value =>
        if !wanted then .stay .plain []
        else if 0xdc00 ≤ value ∧ value ≤ 0xdfff then .fail .loneHalf
        else if 0xd800 ≤ value ∧ value ≤ 0xdbff then .stay (.half value) []
        else .stay .plain (bytesOf (Char.ofNat value))
  | .half high => if b = 92 then .stay (.halfEscape high) [] else .fail .noOtherHalf
  | .halfEscape high =>
    if b = 117 then .stay (.halfHex high 0 (some 0)) [] else .fail .noOtherHalf
  | .halfHex high digits value =>
    let value := addHex value b
    if digits < 3 then .stay (.halfHex high (digits + 1) value) []
    else
      match value with
      | none => .fail .badEscape
      | some value =>
        if 0xdc00 ≤ value ∧ value ≤ 0xdfff then
          .stay .plain
            (bytesOf (Char.ofNat (0x10000 + (high - 0xd800) * 0x400 + (value - 0xdc00))))
        else .fail .loneHalf

/-- The bytes of a string, last one first, or its break, from somewhere inside it on. -/
def stringFrom (wanted : Bool) (inside : Within) (done : List UInt8) (spot : Spot) :
    List UInt8 → Except Break (List UInt8) × Cursor
  | [] => (.error .endInText, ⟨spot, []⟩)
  | b :: rest =>
    match inside.move wanted b with
    | .stay inside bytes => stringFrom wanted inside (bytes ++ done) (spot.behind b) rest
    | .close => (.ok done, ⟨spot.behind b, rest⟩)
    | .fail e => (.error e, ⟨spot.behind b, rest⟩)
    | .failBefore e => (.error e, ⟨spot, b :: rest⟩)

/-- The rest of a string behind its opening quote. -/
def string (wanted : Bool) : Probe String := do
  let c ← get
  let (result, c) := stringFrom wanted .plain [] c.spot c.ahead
  set c
  match result with
  | .ok bytes => return if wanted then Utf8.replaced bytes.reverse else ""
  | .error b => failHere b

/-! ## Numbers -/

/-- The digits that come next. -/
def digits : Probe (List Char) := do
  let c ← get
  let (taken, c) := Cursor.span Decimal.isDigit [] c.spot c.ahead
  set c
  return taken.reverse

/-- The digits of a number in front of its fraction. -/
def wholeDigits (onEnd : Break) : Probe (List Char) := do
  match ← next with
  | none => failHere onEnd
  | some '0' =>
    match ← peek with
    | some c => if Decimal.isDigit c then failAhead .badNumber else return ['0']
    | none => return ['0']
  | some c => if Decimal.isDigit c then return c :: (← digits) else failHere .badNumber

/-- The fraction of a number, if it has one. -/
def fraction (onEnd : Break) : Probe (List Char) := do
  if (← peek) = some '.' then
    eat
    match ← digits with
    | [] => if (← peek).isSome then failAhead .badNumber else failAhead onEnd
    | taken => return '.' :: taken
  else return []

/-- The mark and the sign of an exponent. -/
def exponentMark : Probe (List Char) := do
  eat
  match ← peek with
  | some '+' => eat; return ['e', '+']
  | some '-' => eat; return ['e', '-']
  | _ => return ['e']

/-- The exponent of a number, if it has one: its mark and sign, and its digits. -/
def exponent (onEnd : Break) : Probe (List Char × List Char) := do
  let mark ← peek
  if mark = some 'e' ∨ mark = some 'E' then
    let front ← exponentMark
    match ← next with
    | none => failHere onEnd
    | some c => if Decimal.isDigit c then return (front, c :: (← digits)) else failHere .badNumber
  else return ([], [])

/-- Skips a number. -/
def skipNumber : Probe Unit := do
  discard (wholeDigits .badNumber)
  discard (fraction .badNumber)
  discard (exponent .badNumber)

/-- How many digits of an exponent can be read until it reaches the limit, or all of them. -/
def digitsToLimit (value : Nat) : List Char → Nat
  | [] => 0
  | c :: rest =>
    let value := value * 10 + Decimal.digitValue c
    if value < exponentLimit then digitsToLimit value rest + 1 else 1

/-- A number, given its sign, which has been taken. -/
def number (isNegative : Bool) : Probe Json := do
  let whole ← wholeDigits .endAtValue
  let fraction ← fraction .endAtValue
  let (mark, power) ← exponent .endAtValue
  let sign := if isNegative then ['-'] else []
  let literal := sign ++ whole ++ fraction ++ mark ++ power
  if numberGrip literal = .held then
    if !fraction.isEmpty || !mark.isEmpty || mostDigits < whole.length then return .real literal
    let n := Decimal.value whole
    if isNegative then
      if n = 0 ∨ Nat.pow 2 63 < n then return .real literal else return .int (-(n : Int))
    else if n < Nat.pow 2 64 then return .int n
    else return .real literal
  else
    let spot := (← get).spot
    let unread := power.length - digitsToLimit 0 power
    throw ⟨.syntactic .hugeNumber, some { spot with column := spot.column - unread }, []⟩

/-! ## Lists and objects -/

/-- Whether a list goes on. -/
def hasItem (isFirst : Bool) : Probe Bool := do
  match ← peekSolid with
  | none => failAhead .endInList
  | some ']' => return false
  | some c =>
    if isFirst then return true
    else if c = ',' then
      eat
      match ← peekSolid with
      | some ']' => failAhead .trailingComma
      | some _ => return true
      | none => failAhead .endAtValue
    else failAhead .noListComma

/-- Whether an object goes on. -/
def hasMember (isFirst : Bool) : Probe Bool := do
  match ← peekSolid with
  | none => failAhead .endInObject
  | some '\x7d' => return false
  | some c =>
    if isFirst then
      if c = '"' then return true else failAhead .nameNotText
    else if c = ',' then
      eat
      match ← peekSolid with
      | some '"' => return true
      | some '\x7d' => failAhead .trailingComma
      | some _ => failAhead .nameNotText
      | none => failAhead .endAtValue
    else failAhead .noObjectComma

/-- The name of the next member, if the object goes on. -/
def memberName (isFirst : Bool) : Probe (Option String) :=
  within .nameless do
    if ← hasMember isFirst then
      eat
      return some (← string true)
    else return none

/-- The colon behind a name. -/
def colon : Probe Unit := do
  match ← peekSolid with
  | some ':' => eat
  | some _ => failAhead .noColon
  | none => failAhead .endInObject

/-- The end of a list. -/
def endList : Probe Unit := do
  match ← peekSolid with
  | some ']' => eat
  | some ',' => do
    eat
    if (← peekSolid) = some ']' then failAhead .trailingComma else failAhead .trailing
  | some _ => failAhead .trailing
  | none => failAhead .endInList

/-- The end of an object. -/
def endObject : Probe Unit := do
  match ← peekSolid with
  | some '\x7d' => eat
  | some ',' => failAhead .trailingComma
  | some _ => failAhead .trailing
  | none => failAhead .endInObject

/--
Goes over the contents of a list or an object and then over its end, which is tried even if the
contents are wrong: a misfit is placed where that leads.
-/
def closedBy (finish : Probe Unit) (contents : Probe α) : Probe α := do
  eat
  let result ← tryCatch (Except.ok <$> contents) fun c => return .error c
  let finished ← tryCatch (Except.ok <$> finish) fun c => return .error c
  match result, finished with
  | .ok a, .ok _ => return a
  | .error c, _ => throw (c.placed (← get).spot)
  | _, .error c => throw (c.placed (← get).spot)

/-! ## Values of any kind -/

/-- The items of a list from a place on, onto those in front of it, last one first. -/
def items (item : Probe α) : (fuel : Nat) → (place : Nat) → (done : List α) → Probe (List α)
  | 0, _, done => return done.reverse
  | fuel + 1, place, done => do
    if ← hasItem (place = 0) then
      let a ← within (.item place) item
      items item fuel (place + 1) (a :: done)
    else return done.reverse

/-- The members of an object, onto those in front of them, last one first. -/
def members (member : Probe α) :
    (fuel : Nat) → (done : List (String × α)) → Probe (List (String × α))
  | 0, done => return done.reverse
  | fuel + 1, done => do
    match ← memberName done.isEmpty with
    | none => return done.reverse
    | some name =>
      colon
      let a ← within (.member name) member
      members member fuel ((name, a) :: done)

/-- A value; what to do with a list and with an object, whose brackets come next, is given. -/
def valueWith (list object : Probe Json) : Probe Json := do
  match ← peekValue with
  | 'n' => eat; word "ull".toList; return .null
  | 't' => eat; word "rue".toList; return .bool true
  | 'f' => eat; word "alse".toList; return .bool false
  | '"' => eat; return .text (← string true)
  | '-' => eat; number true
  | '[' => list
  | '\x7b' => object
  | c => if Decimal.isDigit c then number false else failAhead .noValue

/-- A value, inside which so many levels of nesting are left. -/
def value (fuel : Nat) : (levels : Nat) → Probe Json
  | 0 => valueWith (failAhead .tooDeep) (failAhead .tooDeep)
  | levels + 1 =>
    valueWith (Json.list <$> closedBy endList (items (value fuel levels) fuel 0 []))
      (Json.object <$> closedBy endObject (members (value fuel levels) fuel []))

/-- Leaves lists and objects that end here, innermost first; what is open where another value
comes. -/
def leave (mayEnd : Bool) : List Char → Probe (List Char)
  | [] => return []
  | bracket :: outer => do
    match ← peekSolid with
    | none => failAhead (if bracket = '[' then .endInList else .endInObject)
    | some c =>
      if c = ',' ∧ mayEnd then
        eat
        return bracket :: outer
      else if (c = ']' ∧ bracket = '[') ∨ (c = '\x7d' ∧ bracket = '\x7b') then
        eat
        leave true outer
      else if mayEnd then failAhead (if bracket = '[' then .noListComma else .noObjectComma)
      else return bracket :: outer

/-- Skips the name and the colon in front of a value inside an object. -/
def skipName : Probe Unit := do
  match ← peekSolid with
  | some '"' => eat
  | some _ => failAhead .nameNotText
  | none => failAhead .endInObject
  discard (string false)
  colon

/-- Skips a value inside lists and objects that are open, innermost first, and what follows it in
these. -/
def skipInside : (fuel : Nat) → List Char → Probe Unit
  | 0, _ => return
  | fuel + 1, brackets => do
    let opened ← (do
      match ← peekValue with
      | 'n' => eat; word "ull".toList; return none
      | 't' => eat; word "rue".toList; return none
      | 'f' => eat; word "alse".toList; return none
      | '"' => eat; discard (string false); return none
      | '-' => eat; skipNumber; return none
      | c =>
        if c = '[' ∨ c = '\x7b' then
          eat
          return some c
        else if Decimal.isDigit c then
          skipNumber
          return none
        else failAhead .noValue : Probe (Option Char))
    match ← leave opened.isNone (opened.toList ++ brackets) with
    | [] => return
    | bracket :: outer =>
      if bracket = '\x7b' then skipName
      skipInside fuel (bracket :: outer)

/-- Skips a value that nobody wants. -/
def skip (fuel : Nat) : Probe Unit := skipInside fuel []

/-- Complains that a value is of another type than was expected. -/
def mistyped (expected : String) : Probe α := do
  let j ← valueWith (return .list []) (return .object [])
  throw ((wrongType j expected).placed (← get).spot)

end Probe

end Invigilator.Json
