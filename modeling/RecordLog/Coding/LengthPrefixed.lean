import RecordLog.Coding.Varint

/-!
# Byte strings behind their length

A byte string is written as the variable-width code of its length, a number of 32 bits, and then
its bytes. A byte string whose length is no such number cannot be written. Reading fails if the
length is malformed or says more than there is.

## Main definitions

* `RecordLog.LengthPrefixed.encode` and `RecordLog.LengthPrefixed.take?`.
* `RecordLog.LengthPrefixed.put?` and `RecordLog.LengthPrefixed.write?`, which append to a buffer
  and write over the first bytes of a destination.
-/

namespace RecordLog.LengthPrefixed

/-- The code of a byte string: its length, then its bytes. -/
def encode (b : Bytes) : Bytes := Varint.encode b.length ++ b

/-- The length of a byte string as a number of 32 bits, if it is one. -/
def length? (b : Bytes) : Option UInt32 :=
  if b.length < UInt32.size then some (.ofNat b.length) else none

/-- Appends the code of a byte string to a buffer. -/
def put? (buffer b : Bytes) : Option Bytes := do
  let n ← length? b
  let buffer ← Varint.put32? buffer n
  return buffer ++ b

/-- Writes the code of a byte string over the first bytes of a destination, unless it is too short,
and says how many bytes it has: first the length, then the bytes behind it. -/
def write? (dst b : Bytes) : Option (Bytes × Nat) := do
  let n ← length? b
  let (dst, header) ← Varint.write32? dst n
  let dst ← dst.copy? header b
  return (dst, header + b.length)

/-- The byte string whose code a byte string starts with, and the bytes after that code. -/
def take? (src : Bytes) : Option (Bytes × Bytes) :=
  match Varint.take32? src with
  | none => none
  | some (n, rest) =>
    if n.toNat ≤ rest.length then some (rest.take n.toNat, rest.drop n.toNat) else none

end RecordLog.LengthPrefixed
