import RecordLog.Text.Quoted
import RecordLog.Toml.Value

/-!
# Outlines of values

What is said of a value that stands where another kind is expected: numbers, truth values and
strings are shown, of anything else only the shape is named.

## Main definitions

* `RecordLog.Toml.Outline`, `RecordLog.Toml.Value.outline?` and `RecordLog.Toml.Outline.text`.
-/

namespace RecordLog.Toml

/-- A value without what is inside. -/
inductive Outline
  | integer (n : Int)
  | float (x : Binary64)
  | boolean (b : Bool)
  | string (t : Text)
  | sequence
  | map
  deriving DecidableEq, Repr

/-- The outline of a value, unless it is a number that cannot be read. -/
def Value.outline? : Value → Option Outline
  | .string t => some (.string t)
  | .integer n => some (.integer n)
  | .float x => some (.float x)
  | .unreadable => none
  | .boolean b => some (.boolean b)
  | .moment => some .map
  | .array _ => some .sequence
  | .table _ _ => some .map
  | .tables _ _ => some .sequence

/-- An integer in decimal digits. -/
def integerText (n : Int) : Text :=
  (if n < 0 then ['-'] else []) ++ Nat.toDigits 10 n.natAbs

/-- A truth value as a word. -/
def booleanText (b : Bool) : Text := if b then "true".toList else "false".toList

/-- Whether an integer is a signed or an unsigned number of 64 bits. -/
def isWord64 (n : Int) : Bool := -0x8000000000000000 ≤ n && n < UInt64.size

/-- What is said after an integer that is no number of 64 bits. -/
def widthText (n : Int) : Text :=
  if isWord64 n then []
  else if n < 0x80000000000000000000000000000000 then " as i128".toList
  else " as u128".toList

namespace Outline

/-- What is said of a value. -/
def text : Outline → Text
  | .integer n => "integer `".toList ++ integerText n ++ ['`'] ++ widthText n
  | .float x => "floating point `".toList ++ x.text ++ ['`']
  | .boolean b => "boolean `".toList ++ booleanText b ++ ['`']
  | .string t => "string ".toList ++ Quoted.text t
  | .sequence => "sequence".toList
  | .map => "map".toList

end Outline

end RecordLog.Toml
