import RecordLog.Bytes.Basic
import RecordLog.Volume.Path

/-!
# The path of the scratch directory

Scratch files go to a directory that two settings can name. A setting that is empty counts as not
set, and without either it is a directory of the process, in the one of the system for temporary
files.

## Main definitions

* `RecordLog.Scratch.choose`, the directory that the settings name.
* `RecordLog.Scratch.ofProcess`, the directory of a process.
* `RecordLog.Scratch.Settings` and `RecordLog.Scratch.Settings.path`.
-/

namespace RecordLog.Scratch

/-- The directory that two settings name, the first of them before the second. -/
def choose (specific general : Option Bytes) : Option Bytes :=
  (specific.filter (· ≠ [])).or (general.filter (· ≠ []))

/-- The name of the directory of a process, given by its number. -/
def nameOfProcess (process : Nat) : Name :=
  Bytes.ofAscii "c2test-" ++ Bytes.ofAscii (toString process)

/-- The directory of a process in the one for temporary files. -/
def ofProcess (temporary : Bytes) (process : Nat) : Bytes :=
  if temporary = [] ∨ Path.endsInSlash temporary then temporary ++ nameOfProcess process
  else temporary ++ Path.slash :: nameOfProcess process

/-- What the process is told about directories from outside. -/
structure Settings where
  specific : Option Bytes
  general : Option Bytes
  temporary : Bytes
  deriving DecidableEq, Repr

/-- The path of the scratch directory of a process, as it is told. -/
def Settings.path (x : Settings) (process : Nat) : Bytes :=
  (choose x.specific x.general).getD (ofProcess x.temporary process)

end RecordLog.Scratch
