/-!
# Options

What backings and writers can be told: how much a writer buffers, the modes of new files and
directories, and whether a sync includes the properties of a file besides its contents.

## Main definitions

* `RecordLog.Options`, with its defaults.
-/

namespace RecordLog

/-- Options of backings and writers. -/
structure Options where
  /-- How many bytes a buffered writer holds back before it writes to the volume. -/
  bufferCapacity : UInt64 := 8192
  /-- The mode asked for new files. -/
  fileMode : UInt32 := 0o644
  /-- The mode asked for new directories. -/
  dirMode : UInt32 := 0o755
  /-- Whether a sync includes the properties of a file. -/
  syncMetadata : Bool := false
  deriving DecidableEq, Repr

end RecordLog
