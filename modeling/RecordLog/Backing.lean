import RecordLog.Options.Basic
import RecordLog.Writer.Basic

/-!
# Backings

A backing makes writers and directories on a volume. A direct backing hands out direct writers. A
buffered one hands out writers that buffer as its own options say, on files and directories that
are made as the options of its base say. Two more backings stand before another one: the first
passes everything on, the second all but the making of directories, which it refuses.

## Main definitions

* `RecordLog.Backing`, with `newWriter`, `createDirectory` and `scratchDirectory`.
* `RecordLog.Backing.openDirect`, `RecordLog.Backing.openBuffered`, writers of a chosen kind.
* `RecordLog.Backing.base?`, what a buffered backing stands on.
-/

namespace RecordLog

/-- What makes writers and directories on a volume. -/
inductive Backing
  | direct (o : Options)
  | buffered (base : Options) (o : Options)
  | forwarding (inner : Backing)
  | fixedLayout (inner : Backing)
  deriving DecidableEq, Repr

namespace Backing

/-- The process-wide buffered backing. -/
def defaultBuffered : Backing := .buffered {} {}

/-- The process-wide direct backing. -/
def defaultDirect : Backing := .direct {}

/-- The backing on which a buffered one stands. -/
def base? : Backing → Option Backing
  | .buffered base _ => some (.direct base)
  | _ => none

/-- Opens a path to write to it from the start, with the mode that options ask for new files. -/
def openFile (v : Volume) (o : Options) (p : Bytes) : Except FileError (Volume × Descriptor) :=
  (v.openToWrite p o.fileMode.toNat).mapError (.refused p)

/-- A direct writer on a path. -/
def openDirect (v : Volume) (o : Options) (p : Bytes) : Except FileError (Volume × Writer) :=
  (openFile v o p).map fun (v, d) => (v, .direct ⟨p, some d, o.syncMetadata⟩)

/-- The buffered writer on a descriptor, as options say. No process has room for a buffer whose
capacity is beyond the signed numbers of 64 bits: asking for one stops the process, after the file
has been opened. That is not told apart here from a writer with so large a buffer. -/
def bufferedWriter (o : Options) (p : Bytes) (d : Descriptor) : Writer :=
  .buffered ⟨p, o.bufferCapacity.toNat, some ⟨d, []⟩, o.syncMetadata⟩

/-- A buffered writer on a path: one set of options says how the file is made, the other how the
writer buffers. -/
def openBuffered (v : Volume) (base o : Options) (p : Bytes) :
    Except FileError (Volume × Writer) :=
  (openFile v base p).map fun (v, d) => (v, bufferedWriter o p d)

/-- A new writer on a path. -/
def newWriter (v : Volume) (p : Bytes) : Backing → Except FileError (Volume × Writer)
  | .direct o => openDirect v o p
  | .buffered base o => openBuffered v base o p
  | .forwarding inner => newWriter v p inner
  | .fixedLayout inner => newWriter v p inner

/-- Makes a directory. -/
def createDirectory (v : Volume) (p : Bytes) : Backing → Except FileError Volume
  | .direct o => (v.makeDirectory p o.dirMode.toNat).mapError (.refused p)
  | .buffered base _ => (v.makeDirectory p base.dirMode.toNat).mapError (.refused p)
  | .forwarding inner => createDirectory v p inner
  | .fixedLayout _ => .error (.fixedLayout p)

/-- Sees to it that the scratch directory, given by its path, is there. The options have no say in
how it is made. -/
def scratchDirectory (v : Volume) (p : Bytes) : Backing → Except FileError Unit × Volume
  | .direct _ => make
  | .buffered _ _ => make
  | .forwarding inner => scratchDirectory v p inner
  | .fixedLayout inner => scratchDirectory v p inner
where
  /-- Makes the directory and those on the way to it. -/
  make : Except FileError Unit × Volume :=
    let r := v.makeDirectories p
    (r.1.mapError (.refused p), r.2)

end Backing

end RecordLog
