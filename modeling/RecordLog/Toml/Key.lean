import RecordLog.Toml.Quotation

/-!
# Keys

A key is a word of ASCII letters, digits, underscores and hyphens, or a string within a line.
Keys joined by points lead through tables to the last one.

## Main definitions

* `RecordLog.Toml.KeyPath` and `RecordLog.Toml.keyPath?`.
-/

namespace RecordLog.Toml

/-- Keys that lead through tables, and the key in the last of these. -/
structure KeyPath where
  way : List Text
  last : Text
  deriving DecidableEq, Repr

/-- All keys of a path. -/
def KeyPath.keys (p : KeyPath) : List Text := p.way ++ [p.last]

/-- A path one key longer. -/
def KeyPath.push (p : KeyPath) (k : Text) : KeyPath := ⟨p.keys, k⟩

/-- Whether a character may stand in a key without quotes. -/
def isBare (c : Char) : Bool := c.isAlphanum || c = '_' || c = '-'

/-- A key. -/
def key? : Reader Text := fun t =>
  if t.takeWhile isBare = [] then Quotation.lineString? t
  else some (t.takeWhile isBare, t.dropWhile isBare)

/-- A point and one more key of a path, if there is a point. -/
def nextKey? (p : KeyPath) : Reader (KeyPath × Bool) := fun t =>
  match skipBlanks t with
  | '.' :: t => (key? (skipBlanks t)).map fun (k, rest) => ((p.push k, true), rest)
  | t => some ((p, false), t)

/-- How many keys a path may have, and how deep brackets and braces may be nested. -/
def maxDepth : Nat := 80

/-- Keys joined by points, with blanks around these, and the text after the blanks behind. -/
def keyPath? : Reader KeyPath := fun t => do
  let (k, t) ← key? t
  let (p, t) ← Reader.repeated nextKey? ⟨[], k⟩ t
  if p.keys.length ≤ maxDepth then return (p, t) else none

end RecordLog.Toml
