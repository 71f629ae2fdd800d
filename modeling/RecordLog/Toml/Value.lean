import RecordLog.Decimal.Binary64

/-!
# Values of configuration documents

A document is a table of values under keys, which may be tables themselves. How a table came about
decides what may still be added to it.

## Main definitions

* `RecordLog.Toml.Value`, `RecordLog.Toml.Entries` and `RecordLog.Toml.Origin`.
* `RecordLog.Toml.Value.ofInteger` and `RecordLog.Toml.Value.ofNearest`, for numbers that may not
  be readable.
* `RecordLog.Toml.Value.holdsUnreadable`.
-/

namespace RecordLog.Toml

/-- How a table came about. -/
inductive Origin
  /-- On the way to a header. -/
  | implied
  /-- On the way to a dotted key. -/
  | dotted
  /-- By a header of its own. -/
  | header
  /-- Between braces: nothing is added to it. -/
  | closed
  deriving DecidableEq, Repr

/-- Values. Of a date or time it is only kept that it is one, and likewise of a number that cannot
be read, because it is too large or is not made of digits. A list of tables is made by headers, one
for each table; unlike an array it is added to by further ones, and it has a last table. -/
inductive Value
  | string (t : Text)
  | integer (n : Int)
  | float (x : Binary64)
  | unreadable
  | boolean (b : Bool)
  | moment
  | array (vs : List Value)
  | table (origin : Origin) (entries : List (Text × Value))
  | tables (earlier : List (List (Text × Value))) (last : List (Text × Value))
  deriving Repr

/-- Values under keys, in the order in which they are given. -/
abbrev Entries := List (Text × Value)

namespace Value

/-- An integer, which cannot be read beyond the signed and the unsigned numbers of 128 bits. -/
def ofInteger (n : Int) : Value :=
  if -0x80000000000000000000000000000000 ≤ n ∧ n < 0x100000000000000000000000000000000 then
    .integer n
  else .unreadable

/-- A number given by decimal digits, which cannot be read if no finite number is near it. -/
def ofNearest : Binary64 → Value
  | .infinite _ => .unreadable
  | x => .float x

mutual

/-- Whether a value is or holds a number that cannot be read. -/
def holdsUnreadable : Value → Bool
  | .unreadable => true
  | .array vs => anyUnreadable vs
  | .table _ es => entriesUnreadable es
  | .tables earlier last => tablesUnreadable earlier || entriesUnreadable last
  | _ => false

/-- Whether some of the values is or holds a number that cannot be read. -/
def anyUnreadable : List Value → Bool
  | [] => false
  | v :: vs => v.holdsUnreadable || anyUnreadable vs

/-- Whether a value under some key is or holds a number that cannot be read. -/
def entriesUnreadable : List (Text × Value) → Bool
  | [] => false
  | (_, v) :: es => v.holdsUnreadable || entriesUnreadable es

/-- Whether some of the tables holds a number that cannot be read. -/
def tablesUnreadable : List (List (Text × Value)) → Bool
  | [] => false
  | es :: rest => entriesUnreadable es || tablesUnreadable rest

end

end Value

end RecordLog.Toml
