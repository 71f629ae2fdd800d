import RecordLog.Volume.Basic

/-!
# Where paths lead

A path is walked name by name from the root or the working directory. Every name before the last
has to be that of a directory, or of a symbolic link that leads to one, and each directory in which
a name is looked up has to allow to be searched. What becomes of the last name depends on what the
path is wanted for: a name to be made or removed is only split off, while for an object a link
there is followed, too. At most 40 links are followed on a walk.

## Main definitions

* `RecordLog.Volume.Purpose`, what a path is wanted for, and `RecordLog.Volume.Place`, where it
  leads.
* `RecordLog.Volume.walkNames`, `RecordLog.Volume.walk` and `RecordLog.Volume.locate`.
-/

namespace RecordLog.Volume

/-- What a path is wanted for. -/
inductive Purpose
  /-- An entry itself: a link at the end is not followed. -/
  | entry
  /-- A file that is made if it is missing: a link at the end is followed, but not if a slash
  comes after it. -/
  | target
  /-- An object that is there: a link at the end is followed, and a slash after the last name asks
  for a directory. -/
  | object
  deriving DecidableEq, Repr

/-- Where a path leads: to a directory, or to a name in a directory, which may have no entry yet,
with a slash after it or not. -/
inductive Place
  | directory (l : Location)
  | name (dir : Location) (n : Name) (slashed : Bool)
  deriving DecidableEq, Repr

/-- Most bytes in a name. -/
def maxName : Nat := 255

/-- Most bytes in a path. -/
def maxPath : Nat := 4095

/-- Most symbolic links that are followed on a walk. -/
def maxLinks : Nat := 40

/-- The directory at which a path starts, if a path that is not absolute starts at a given one. -/
def origin (dir : Location) (p : Bytes) : Location := if Path.isAbsolute p then [] else dir

/-- The names to walk for a path. For an object, a slash at the end is the empty name, which is
not looked up and comes only after directories. -/
def Purpose.names (u : Purpose) (p : Bytes) : List Name :=
  match u with
  | .object => Path.names p ++ if Path.endsInSlash p then [[]] else []
  | _ => Path.names p

/-- Whether a slash after the last name is left to be considered. -/
def Purpose.slashed (u : Purpose) (p : Bytes) : Bool :=
  match u with
  | .object => false
  | _ => Path.endsInSlash p

/-- Whether a link at the last name is followed. -/
def Purpose.follows (u : Purpose) (slashed : Bool) : Bool :=
  match u with
  | .entry => false
  | .target => !slashed
  | .object => true

/-- Walks names from a directory. A link goes on with a given walk, from the directory where its
target starts. -/
def walkNames (v : Volume) (u : Purpose)
    (follow : Location → List Name → Bool → Except Int Place) (slashed : Bool) :
    Location → List Name → Except Int Place
  | dir, [] => .ok (.directory dir)
  | dir, n :: rest =>
    if n = [] then
      walkNames v u follow slashed dir rest
    else if !v.canSearch dir then
      .error Errno.accessDenied
    else if n = Path.dot then
      walkNames v u follow slashed dir rest
    else if n = Path.dotDot then
      walkNames v u follow slashed dir.dropLast rest
    else if rest = [] then
      match v.entry? (dir ++ [n]) with
      | some (.symlink target) =>
        if u.follows slashed then
          follow (origin dir target) (u.names target) (u.slashed target)
        else
          .ok (.name dir n slashed)
      | _ => .ok (.name dir n slashed)
    else if maxName < n.length then
      .error Errno.nameTooLong
    else
      match v.entry? (dir ++ [n]) with
      | none => .error Errno.noEntry
      | some (.directory _) => walkNames v u follow slashed (dir ++ [n]) rest
      | some (.symlink target) =>
        follow (origin dir target) (Path.names target ++ rest) slashed
      | some _ => .error Errno.notDirectory

/-- Walks names from a directory, following at most the given number of links. -/
def walk (v : Volume) (u : Purpose) : Nat → Location → List Name → Bool → Except Int Place
  | 0, dir, names, slashed =>
    walkNames v u (fun _ _ _ => .error Errno.tooManyLinks) slashed dir names
  | links + 1, dir, names, slashed => walkNames v u (walk v u links) slashed dir names

/-- Where a path leads. -/
def locate (v : Volume) (u : Purpose) (p : Bytes) : Except SystemError Place :=
  if 0 ∈ p then
    .error .nulInName
  else if p = [] then
    .error (.os Errno.noEntry)
  else if maxPath < p.length then
    .error (.os Errno.nameTooLong)
  else
    (walk v u maxLinks (origin v.workingDirectory p) (u.names p) (u.slashed p)).mapError .os

end RecordLog.Volume
