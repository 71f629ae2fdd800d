import RecordLog.Bytes.Basic

/-!
# Paths

A path is a byte string of names with slashes between them. It starts at the root if it begins
with a slash and at the working directory otherwise; repeated slashes count as one. The name `.`
stays where it is and the name `..` goes up.

## Main definitions

* `RecordLog.Path.names`, `RecordLog.Path.isAbsolute`, `RecordLog.Path.endsInSlash`.
* `RecordLog.Path.ancestors`, a path and the directories on the way to it.
-/

namespace RecordLog

/-- Names of entries in directories. -/
abbrev Name := Bytes

namespace Path

/-- The byte between names. -/
def slash : UInt8 := 0x2F

/-- The name that stays where it is. -/
def dot : Name := [0x2E]

/-- The name that goes up. -/
def dotDot : Name := [0x2E, 0x2E]

/-- The pieces of a byte string between slashes, empty ones included. -/
def pieces : Bytes → List Name
  | [] => [[]]
  | b :: r =>
    match pieces r with
    | [] => [[b]]
    | p :: ps => if b = slash then [] :: p :: ps else (b :: p) :: ps

/-- The names in a path. -/
def names (p : Bytes) : List Name := (pieces p).filter (· ≠ [])

/-- Whether a path starts at the root. -/
def isAbsolute (p : Bytes) : Bool := p.head? = some slash

/-- Whether the last name of a path is followed by a slash. -/
def endsInSlash (p : Bytes) : Bool := p.getLast? = some slash

/-- The path of names that start at the root or not. -/
def join (absolute : Bool) (ns : List Name) : Bytes :=
  (if absolute then [slash] else []) ++ List.intercalate [slash] ns

/-- A path, and then without its last name, without its last two names, and so on, as long as one
is left. A name `.` is not counted as one, unless a path that is not absolute begins with it. -/
def ancestors (p : Bytes) : List Bytes :=
  if p = [] then []
  else p :: (fronts (isAbsolute p) (names p).reverse).tail.map (join (isAbsolute p))
where
  /-- The lists of names that leave out names at the end and end in one that counts, given the names
  from the last on. -/
  fronts (absolute : Bool) : List Name → List (List Name)
    | [] => []
    | n :: ns =>
      if n = dot ∧ (absolute ∨ ns ≠ []) then fronts absolute ns
      else (n :: ns).reverse :: fronts absolute ns

end Path

end RecordLog
