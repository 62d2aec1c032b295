import Invigilator.Json.Basic
import Invigilator.Text.Decimal

/-!
# JSON tokens

The lexical level: the tokens of a text, the text of each token, and a scanner that reads one
character at a time. The scanner is an automaton, so a text is read by structural recursion on
its characters and no step can stall.
-/

namespace Invigilator.Json

inductive Token where
  | openList
  | closeList
  | openObject
  | closeObject
  | comma
  | colon
  | null
  | bool (b : Bool)
  | int (n : Int)
  | real (literal : List Char)
  | text (s : List Char)
  | torn (tear : Tear)
deriving DecidableEq, Repr

/-! ## Writing -/

/-- The character of a hexadecimal digit below sixteen. -/
def hexDigit (d : Nat) : Char := if d < 10 then Char.ofNat (48 + d) else Char.ofNat (87 + d)

/--
A character of a string as it is written: the quote, the backslash and the controls are escaped,
all else stands for itself.
-/
def escapeChar (c : Char) : List Char :=
  if c = '"' then ['\\', '"']
  else if c = '\\' then ['\\', '\\']
  else if c.toNat = 8 then ['\\', 'b']
  else if c.toNat = 9 then ['\\', 't']
  else if c.toNat = 10 then ['\\', 'n']
  else if c.toNat = 12 then ['\\', 'f']
  else if c.toNat = 13 then ['\\', 'r']
  else if c.toNat < 32 then
    ['\\', 'u', '0', '0', hexDigit (c.toNat / 16), hexDigit (c.toNat % 16)]
  else [c]

/-- The characters of a string as they are written, onto what follows them. -/
def escapeOnto (behind : List Char) (s : List Char) : List Char :=
  s.reverse.foldl (fun out c => escapeChar c ++ out) behind

/-- The text of a token, onto what follows it. -/
def Token.writeOnto (behind : List Char) : Token → List Char
  | .openList => '[' :: behind
  | .closeList => ']' :: behind
  | .openObject => '\x7b' :: behind
  | .closeObject => '\x7d' :: behind
  | .comma => ',' :: behind
  | .colon => ':' :: behind
  | .null => 'n' :: 'u' :: 'l' :: 'l' :: behind
  | .bool true => 't' :: 'r' :: 'u' :: 'e' :: behind
  | .bool false => 'f' :: 'a' :: 'l' :: 's' :: 'e' :: behind
  | .int n => Decimal.intDigits n ++ behind
  | .real literal => literal ++ behind
  | .text s => '"' :: escapeOnto ('"' :: behind) s
  | .torn .atEnd => '"' :: '\\' :: 'u' :: 'd' :: '8' :: '0' :: '0' :: '"' :: behind
  | .torn .inside => '"' :: '\\' :: 'u' :: 'd' :: 'c' :: '0' :: '0' :: '"' :: behind

/-- The text of a list of tokens. -/
def writeTokens (tokens : List Token) : List Char :=
  tokens.reverse.foldl Token.writeOnto []

/-! ## Numbers -/

/-- Whether a text is the part of a number behind its whole digits: a fraction, an exponent. -/
def isFractionOrPower (cs : List Char) : Bool :=
  let afterFraction : Option (List Char) :=
    match cs with
    | '.' :: rest =>
      match Decimal.spanDigits rest with
      | ([], _) => none
      | (_, behind) => some behind
    | _ => some cs
  match afterFraction with
  | none => false
  | some [] => true
  | some (c :: rest) =>
    if c = 'e' ∨ c = 'E' then
      let power :=
        match rest with
        | '+' :: r => r
        | '-' :: r => r
        | r => r
      !power.isEmpty && power.all Decimal.isDigit
    else false

/-- The most digits of a whole number of 64 bits. -/
def mostDigits : Nat := 20

/-- The token of a number's literal, if the literal is well formed. -/
def numberToken? (literal : List Char) : Option Token :=
  let (negative, body) : Bool × List Char :=
    match literal with
    | '-' :: rest => (true, rest)
    | rest => (false, rest)
  match Decimal.spanDigits body with
  | ([], _) => none
  | ('0' :: _ :: _, _) => none
  | (whole, []) =>
    if mostDigits < whole.length then some (.real literal)
    else if negative then
      if whole = ['0'] then some (.real literal) else some (.int (-(Decimal.value whole : Int)))
    else some (.int (Decimal.value whole))
  | (_, behind) => if isFractionOrPower behind then some (.real literal) else none

/-! ## The scanner -/

/--
Where the scanner is. Texts read so far are kept in reverse, with what is known to be wrong with
them; `half` is a text whose last escape was the first half of a surrogate pair.
-/
inductive Scanner where
  | between
  | word (read : List Char)
  | number (read : List Char)
  | text (read : List Char) (tear : Option Tear)
  | escape (read : List Char) (tear : Option Tear)
  | hex (read : List Char) (tear : Option Tear) (digits value : Nat)
  | half (read : List Char) (tear : Option Tear) (high : Nat)
  | halfEscape (read : List Char) (tear : Option Tear) (high : Nat)
  | halfHex (read : List Char) (tear : Option Tear) (high digits value : Nat)
deriving DecidableEq, Repr

/-- The value of a hexadecimal digit. -/
def hexValue? (c : Char) : Option Nat :=
  if '0' ≤ c ∧ c ≤ '9' then some (c.toNat - 48)
  else if 'a' ≤ c ∧ c ≤ 'f' then some (c.toNat - 87)
  else if 'A' ≤ c ∧ c ≤ 'F' then some (c.toNat - 55)
  else none

/-- Whether a character can be part of a number's literal. -/
def isNumberChar (c : Char) : Bool :=
  Decimal.isDigit c || c == '-' || c == '+' || c == '.' || c == 'e' || c == 'E'

/-- The blanks that may stand between tokens. -/
def isSpace (c : Char) : Bool := c == ' ' || c == '\t' || c == '\n' || c == '\r'

/-- The token of a bare word. -/
def wordToken? (w : List Char) : Option Token :=
  if w = ['n', 'u', 'l', 'l'] then some .null
  else if w = ['t', 'r', 'u', 'e'] then some (.bool true)
  else if w = ['f', 'a', 'l', 's', 'e'] then some (.bool false)
  else none

/-- One character between tokens. -/
def Scanner.start (out : List Token) (c : Char) : Option (Scanner × List Token) :=
  if isSpace c then some (.between, out)
  else if c = '"' then some (.text [] none, out)
  else if c = '[' then some (.between, .openList :: out)
  else if c = ']' then some (.between, .closeList :: out)
  else if c = '\x7b' then some (.between, .openObject :: out)
  else if c = '\x7d' then some (.between, .closeObject :: out)
  else if c = ',' then some (.between, .comma :: out)
  else if c = ':' then some (.between, .colon :: out)
  else if Decimal.isDigit c || c == '-' then some (.number [c], out)
  else if 'a' ≤ c ∧ c ≤ 'z' then some (.word [c], out)
  else none

/-- The character that a one-letter escape stands for. -/
def plainEscape? (c : Char) : Option Char :=
  if c = '"' then some '"'
  else if c = '\\' then some '\\'
  else if c = '/' then some '/'
  else if c = 'b' then some (Char.ofNat 8)
  else if c = 'f' then some (Char.ofNat 12)
  else if c = 'n' then some '\n'
  else if c = 'r' then some '\r'
  else if c = 't' then some '\t'
  else none

/-- The token of a string. -/
def textToken (read : List Char) : Option Tear → Token
  | none => .text read.reverse
  | some tear => .torn tear

/-- One character inside a string. -/
def Scanner.inText (read : List Char) (tear : Option Tear) (out : List Token) (c : Char) :
    Option (Scanner × List Token) :=
  if c = '"' then some (.between, textToken read tear :: out)
  else if c = '\\' then some (.escape read tear, out)
  else if c.toNat < 32 then none
  else some (.text (c :: read) tear, out)

/-- One character behind a backslash. -/
def Scanner.inEscape (read : List Char) (tear : Option Tear) (out : List Token) (c : Char) :
    Option (Scanner × List Token) :=
  if c = 'u' then some (.hex read tear 0 0, out)
  else (plainEscape? c).map fun e => (.text (e :: read) tear, out)

/-- A unit that four hexadecimal digits gave. -/
def Scanner.unit (read : List Char) (tear : Option Tear) (value : Nat) : Scanner :=
  if 0xd800 ≤ value ∧ value ≤ 0xdbff then
    if tear = some .inside then .text read tear else .half read tear value
  else if 0xdc00 ≤ value ∧ value ≤ 0xdfff then .text read (some .inside)
  else .text (Char.ofNat value :: read) tear

/--
One character, wherever the scanner is. A first half that the closing quote follows is missed
there, one that anything else follows is missed inside the string.
-/
def Scanner.step (out : List Token) (c : Char) : Scanner → Option (Scanner × List Token)
  | .between => Scanner.start out c
  | .word read =>
    if 'a' ≤ c ∧ c ≤ 'z' then some (.word (c :: read), out)
    else do
      let token ← wordToken? read.reverse
      Scanner.start (token :: out) c
  | .number read =>
    if isNumberChar c then some (.number (c :: read), out)
    else do
      let token ← numberToken? read.reverse
      Scanner.start (token :: out) c
  | .text read tear => Scanner.inText read tear out c
  | .escape read tear => Scanner.inEscape read tear out c
  | .hex read tear digits value => do
    let d ← hexValue? c
    let value := value * 16 + d
    if digits < 3 then some (.hex read tear (digits + 1) value, out)
    else some (Scanner.unit read tear value, out)
  | .half read tear high =>
    if c = '\\' then some (.halfEscape read tear high, out)
    else Scanner.inText read (some (if c = '"' then .atEnd else .inside)) out c
  | .halfEscape read tear high =>
    if c = 'u' then some (.halfHex read tear high 0 0, out)
    else Scanner.inEscape read (some .inside) out c
  | .halfHex read tear high digits value => do
    let d ← hexValue? c
    let value := value * 16 + d
    if digits < 3 then some (.halfHex read tear high (digits + 1) value, out)
    else if 0xdc00 ≤ value ∧ value ≤ 0xdfff then
      let point := 0x10000 + (high - 0xd800) * 0x400 + (value - 0xdc00)
      some (.text (Char.ofNat point :: read) tear, out)
    else some (.text read (some .inside), out)

/-- Bytes that are no character: a string may hold them, but is torn then. -/
def Scanner.spoil : Scanner → Option Scanner
  | .text read tear => some (.text read (tear.or (some .atEnd)))
  | .half read _ _ => some (.text read (some .inside))
  | _ => none

/-- The tokens when the text ends. -/
def Scanner.finish (out : List Token) : Scanner → Option (List Token)
  | .between => some out.reverse
  | .word read => (wordToken? read.reverse).map fun t => (t :: out).reverse
  | .number read => (numberToken? read.reverse).map fun t => (t :: out).reverse
  | _ => none

/-- The tokens of a text, from a state of the scanner on. -/
def scanFrom (scanner : Scanner) (out : List Token) : List Char → Option (List Token)
  | [] => scanner.finish out
  | c :: rest =>
    match scanner.step out c with
    | none => none
    | some (scanner, out) => scanFrom scanner out rest

/-- The tokens of a text, or `none` if it does not split into tokens. -/
def scan (text : List Char) : Option (List Token) := scanFrom .between [] text

/-- The tokens of a text in which some bytes are no character, from a state of the scanner on. -/
def scanPiecesFrom (scanner : Scanner) (out : List Token) :
    List (Option Char) → Option (List Token)
  | [] => scanner.finish out
  | some c :: rest =>
    match scanner.step out c with
    | none => none
    | some (scanner, out) => scanPiecesFrom scanner out rest
  | none :: rest =>
    match scanner.spoil with
    | none => none
    | some scanner => scanPiecesFrom scanner out rest

/-- The tokens of a text in which some bytes are no character. -/
def scanPieces (text : List (Option Char)) : Option (List Token) :=
  scanPiecesFrom .between [] text

end Invigilator.Json
