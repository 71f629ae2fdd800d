import RecordLog.Decimal.Signed64
import RecordLog.Text.Blank

/-!
# Seeds

The seed of a random run may be set from outside, as the decimal text of a signed number of 64 bits
with white space around it. A number that is not positive leaves the default, as does anything that
is no such text.

## Main definitions

* `RecordLog.Seed.ofText`, the seed that a text sets.
* `RecordLog.Seed.ofSettings`, the seed that two settings give, of which the first counts if it is
  set to a text at all.
-/

namespace RecordLog.Seed

/-- The seed of a run for which none is set. -/
def unset : Nat := 301

/-- The number that a text stands for, with white space at its ends or not. -/
def number? (t : Text) : Option Int := Signed64.ofText? (Blank.trim t)

/-- The seed that a text sets, or the default. -/
def ofText (t : Option Text) : Nat :=
  match (t.bind number?).filter (0 < ·) with
  | some n => n.toNat
  | none => unset

/-- The seed that two settings give. The first setting counts if its bytes are a text, whether or
not that text sets a seed, and otherwise the second. -/
def ofSettings (specific general : Option Bytes) : Nat :=
  ofText ((specific.bind Utf8.decode?).or (general.bind Utf8.decode?))

end RecordLog.Seed
