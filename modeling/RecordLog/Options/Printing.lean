import RecordLog.Options.Format

/-!
# Options as documents

Options are written as a document that gives each setting its value, whether or not this is the
default.

## Main definitions

* `RecordLog.Options.toDocument`.
-/

namespace RecordLog.Options

/-- The document that gives every setting the value that options say. -/
def toDocument (f : Format) (o : Options) : Except Text Text :=
  f.write (Setting.all.map fun s => (s.key, s.kind.scalar (o.value s)))

end RecordLog.Options
