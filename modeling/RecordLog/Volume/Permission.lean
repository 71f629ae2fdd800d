/-!
# Permission bits

Each directory and file has permission bits. All that is done on a volume is done by the owner of
everything there, so that of the bits for reading, writing and searching those of the owner count.
The owner has no privileges besides: the process masks some bits of what it creates, and two bits
are taken from a file once its content changes, which only a process with a privilege could keep.

## Main definitions

* `RecordLog.Volume.Mode`, `RecordLog.Volume.Access` and `RecordLog.Volume.allows`.
* `RecordLog.Volume.fileMode` and `RecordLog.Volume.directoryMode`, the bits of what is created.
* `RecordLog.Volume.modeAfterChange`, the bits of a file whose content changes.
-/

namespace RecordLog.Volume

/-- Permission bits. -/
abbrev Mode := Nat

/-- What a directory or file can be used for. To search a directory is to walk on from there. -/
inductive Access
  | read
  | write
  | search
  deriving DecidableEq, Repr

/-- The bit by which the owner has an access. -/
def Access.bit : Access → Mode
  | .read => 0o400
  | .write => 0o200
  | .search => 0o100

/-- Whether permission bits allow an access. -/
def allows (m : Mode) (a : Access) : Bool := m &&& a.bit ≠ 0

/-- All permission bits. -/
def allBits : Mode := 0o7777

/-- The bit by which a directory hands its group down. -/
def setGroup : Mode := 0o2000

/-- The bit by which the group may execute a file. -/
def groupExecute : Mode := 0o010

/-- Permission bits less those that are masked. -/
def unmasked (umask m : Mode) : Mode := m ^^^ (m &&& umask)

/-- The permission bits of a new file for which a mode is asked, less those that are masked. -/
def fileMode (umask asked : Mode) : Mode := unmasked umask (asked &&& allBits)

/-- The permission bits of a new directory for which a mode is asked, less those that are masked.
The set-group bit is not taken from the mode but from the directory above. -/
def directoryMode (umask asked above : Mode) : Mode :=
  unmasked umask (asked &&& 0o1777) ||| (above &&& setGroup)

/-- The permission bits of a file after its content has been changed without a privilege to keep
them all. The set-user bit is gone, and the set-group bit, too, if the group may execute the
file. -/
def modeAfterChange (m : Mode) : Mode :=
  if m &&& groupExecute = 0 then m &&& 0o3777 else m &&& 0o1777

end RecordLog.Volume
