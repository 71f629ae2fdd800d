import RecordLog.Toml.Moment
import RecordLog.Toml.Number

/-!
# Words and strings

Numbers, truth values, dates and times are words: they are read to their end first and told apart
then. Blanks belong to a word if more of it follows, as a time does after its date.

## Main definitions

* `RecordLog.Toml.spanWord?`, a word and what comes after it.
* `RecordLog.Toml.word?`, the value of a word.
* `RecordLog.Toml.scalar?`, a value that holds no others, at the front of a text.
-/

namespace RecordLog.Toml

/-- Whether a character may stand in a word: it is no blank, line end, bracket, brace, comma or
equals sign, and begins no comment. -/
def isWordPart (c : Char) : Bool :=
  !(isBlank c || c = '\r' || c = '\n' || c = '[' || c = ']' || c = '\x7b' || c = '\x7d' ||
    c = ',' || c = '=' || c = '#')

/-- Whether a text goes on with a word after blanks: neither a point nor a quote does. -/
def goesOn (t : Text) : Bool :=
  t.head?.any fun c => isWordPart c && c ≠ '.' && c ≠ '"' && c ≠ '\''

/-- A piece of a word up to the next blanks, of which the pieces before are given, and with these
blanks if the word goes on after them. -/
def wordPiece? (w : Text) : Reader (Text × Bool) := fun t =>
  let rest := t.dropWhile isWordPart
  if rest.head?.any isBlank ∧ goesOn (skipBlanks rest) then
    some ((w ++ t.takeWhile isWordPart ++ rest.takeWhile isBlank, true), skipBlanks rest)
  else
    some ((w ++ t.takeWhile isWordPart, false), rest)

/-- The text before and after the end of the word at its front. -/
def spanWord? : Reader Text := Reader.repeated wordPiece? []

/-- The value of a word. -/
def word? (w : Text) : Option Value :=
  if w = ['t', 'r', 'u', 'e'] then some (.boolean true)
  else if w = ['f', 'a', 'l', 's', 'e'] then some (.boolean false)
  else if Moment.isMoment w then some .moment
  else number? w

/-- A string or a word. -/
def scalar? : Reader Value := fun t =>
  if t.head? = some '"' ∨ t.head? = some '\'' then
    (Quotation.string? t).map fun (s, rest) => (.string s, rest)
  else do
    let (w, rest) ← spanWord? t
    let v ← word? w
    return (v, rest)

end RecordLog.Toml
