import Playthrough.Text.Extender
import Playthrough.Text.Unprintable

/-!
# Quoted text

A text in a message stands between double quotes. What could not be told apart on the page is
escaped: quotes, backslashes, line ends and tabs by a letter, and characters without a glyph of
their own by number.
-/

namespace Playthrough.Text

/-- A character by its number in hexadecimal. -/
def byNumber (c : Char) : List Char :=
  "\\u\x7b".toList ++ Nat.toDigits 16 c.toNat ++ ['\x7d']

/-- A character inside quotes. -/
def quotedChar (c : Char) : List Char :=
  if c = '\x00' then ['\\', '0']
  else if c = '\t' then ['\\', 't']
  else if c = '\r' then ['\\', 'r']
  else if c = '\n' then ['\\', 'n']
  else if c = '"' || c = '\\' then ['\\', c]
  else if isExtender c || isUnprintable c then byNumber c
  else [c]

/-- A text between quotes. -/
def quoted (text : String) : String :=
  String.ofList ('"' :: text.toList.flatMap quotedChar ++ ['"'])

end Playthrough.Text
