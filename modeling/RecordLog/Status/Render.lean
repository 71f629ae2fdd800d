import RecordLog.Status.Basic
import RecordLog.Text.Escape
import RecordLog.Text.Quoted

/-!
# Statuses for people

A status is displayed as the label of its code, followed by its message if there is one, and shown
in diagnostics with its code and its message in ASCII, quoted. Views are shown in diagnostics in
ASCII, too.

## Main definitions

* `RecordLog.Status.display` and `RecordLog.Status.debug`.
-/

namespace RecordLog.Status

/-- A status as people read it: its label, and after a colon its message if that is not empty. -/
def displayText (s : Status) : Text :=
  if s.message = [] then
    s.code.label.toList
  else
    s.code.label.toList ++ ": ".toList ++ Utf8.decodeLossy s.message

/-- A status as people read it. -/
def display (s : Status) : String := String.ofList s.displayText

/-- A status in diagnostics: the name of its code, and its message in ASCII and then quoted. -/
def debugText (s : Status) : Text :=
  "Status \x7b code: ".toList ++ s.code.name.toList ++ ", message: ".toList ++
    Quoted.text (Escape.bytes s.message) ++ " \x7d".toList

/-- A status in diagnostics. -/
def debug (s : Status) : String := String.ofList s.debugText

end RecordLog.Status
