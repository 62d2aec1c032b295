import Invigilator.Text.Extending
import Invigilator.Text.Graphic
import Invigilator.Text.Id

/-!
# Quoted text

Text between quotes, as log lines show it: what cannot be printed is written by its code point.
Only graphic characters can be printed, and of these neither the fillers nor those that extend
the character before them, which would be drawn on the quote if they came first.
-/

namespace Invigilator.Text

/-- The voicing marks of half width, which have a place of their own although they extend the
letter before them. -/
def halfWidthMarks : List Char := ['\uff9e', '\uff9f']

/-- Whether a character is shown as it is. -/
def isPrintable (c : Char) : Bool :=
  isGraphic c && !isFiller c && (!isExtending c || halfWidthMarks.contains c)

/-- The hexadecimal digits of a number, as few as there are. -/
def hex (n : Nat) : List Char :=
  if n < 16 then [Id.hexDigit n] else hex (n / 16) ++ [Id.hexDigit (n % 16)]
decreasing_by omega

/-- A character between quotes. -/
def quotedChar (c : Char) : List Char :=
  if c = '"' then ['\\', '"']
  else if c = '\\' then ['\\', '\\']
  else if c = '\n' then ['\\', 'n']
  else if c = '\r' then ['\\', 'r']
  else if c = '\t' then ['\\', 't']
  else if c.toNat = 0 then ['\\', '0']
  else if isPrintable c then [c]
  else '\\' :: 'u' :: '\x7b' :: hex c.toNat ++ ['\x7d']

/-- A text between quotes. -/
def quoted (s : String) : String :=
  String.ofList ('"' :: s.toList.flatMap quotedChar ++ ['"'])

/-- A list of texts between quotes. -/
def quotedList (texts : List String) : String := "[" ++ ", ".intercalate (texts.map quoted) ++ "]"

end Invigilator.Text
