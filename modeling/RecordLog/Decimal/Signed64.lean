import RecordLog.Text.Utf8

/-!
# Signed numbers of 64 bits

A signed number of 64 bits is read from its decimal digits, from the first to the last, with a sign
before them or none. The number so far is multiplied by ten and the next digit is put behind it, on
the side of zero that the sign says; neither may leave the range. So a text is refused at the first
digit that is too many, however many digits come after it.

## Main definitions

* `RecordLog.Signed64.least` and `RecordLog.Signed64.greatest`.
* `RecordLog.Signed64.push?`, a number with one more digit.
* `RecordLog.Signed64.ofText?`.
-/

namespace RecordLog.Signed64

/-- The least number of 64 bits. -/
def least : Int := -0x8000000000000000

/-- The greatest number of 64 bits. -/
def greatest : Int := 0x7fffffffffffffff

/-- A number, if it has 64 bits. -/
def checked (n : Int) : Option Int := if least ≤ n ∧ n ≤ greatest then some n else none

/-- The number that a decimal digit stands for. -/
def digit? (c : Char) : Option Nat := if c.isDigit then some (c.toNat - '0'.toNat) else none

/-- A number with one more digit behind those that it has. -/
def push? (negative : Bool) (n : Int) (c : Char) : Option Int :=
  (checked (10 * n)).bind fun tens =>
    (digit? c).bind fun d => checked (if negative then tens - d else tens + d)

/-- The number of some digits, of which there has to be one. -/
def digits? (negative : Bool) : Text → Option Int
  | [] => none
  | c :: t => (c :: t).foldlM (push? negative) 0

/-- The number that a text stands for: digits, after a sign or none. -/
def ofText? : Text → Option Int
  | '-' :: t => digits? true t
  | '+' :: t => digits? false t
  | t => digits? false t

theorem checked_of_mem {n : Int} (h : least ≤ n) (h' : n ≤ greatest) : checked n = some n :=
  if_pos ⟨h, h'⟩

theorem checked_of_lt {n : Int} (h : greatest < n) : checked n = none :=
  if_neg fun hmem => absurd hmem.2 (Int.not_le.2 h)

theorem eq_of_checked {m n : Int} (h : checked m = some n) : m = n := by
  unfold checked at h
  split at h
  · exact Option.some.inj h
  · cases h

end RecordLog.Signed64
