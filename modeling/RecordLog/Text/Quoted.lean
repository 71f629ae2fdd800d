import RecordLog.Text.Printable
import RecordLog.Text.Utf8

/-!
# Quoted texts

A text is quoted between double quotes. A backslash stands before a double quote and a backslash,
the common control characters are written by a letter, and any other character that is not shown
as it is by its number in braces.

## Main definitions

* `RecordLog.Quoted.char`, the quoted form of a character.
* `RecordLog.Quoted.text`, the quoted form of a text, with its quotes.
-/

namespace RecordLog.Quoted

/-- A character by its number, in lower-case hexadecimal digits without leading zeros. -/
def numbered (c : Char) : Text := ['\\', 'u', '\x7b'] ++ Nat.toDigits 16 c.toNat ++ ['\x7d']

/-- The quoted form of a character. -/
def char (c : Char) : Text :=
  if c = '\x00' then ['\\', '0']
  else if c = '\t' then ['\\', 't']
  else if c = '\r' then ['\\', 'r']
  else if c = '\n' then ['\\', 'n']
  else if c = '"' ∨ c = '\\' then ['\\', c]
  else if Printable.isPrintable c then [c]
  else numbered c

/-- The quoted form of a text. -/
def text (t : Text) : Text := '"' :: t.flatMap char ++ ['"']

end RecordLog.Quoted
