import RecordLog.Coding.Fixed
import RecordLog.Coding.LengthPrefixed

/-!
# Fields

The values that records are made of, each in one of six kinds of code. A field is appended to a
buffer, written over the first bytes of a destination, or taken from the front of a byte string
when its kind is known.

## Main definitions

* `RecordLog.Field` and `RecordLog.Field.Kind`.
* `RecordLog.Field.encode`, `RecordLog.Field.put` and `RecordLog.Field.putAll`, the codes of
  fields and buffers with them appended.
* `RecordLog.Field.put?` and `RecordLog.Field.write?`, which write the code of a field into a buffer
  or a destination, unless it does not fit, and `RecordLog.Field.putAll?`.
* `RecordLog.Field.take?`.
-/

namespace RecordLog

/-- A value together with the code that it is written in. -/
inductive Field
  | fixed16 (v : UInt16)
  | fixed32 (v : UInt32)
  | fixed64 (v : UInt64)
  | varint32 (v : UInt32)
  | varint64 (v : UInt64)
  | lengthPrefixed (b : Bytes)
  deriving DecidableEq, Repr

namespace Field

/-- The kinds of code. -/
inductive Kind
  | fixed16
  | fixed32
  | fixed64
  | varint32
  | varint64
  | lengthPrefixed
  deriving DecidableEq, Repr

/-- The kind of a field. -/
def kind : Field → Kind
  | .fixed16 _ => .fixed16
  | .fixed32 _ => .fixed32
  | .fixed64 _ => .fixed64
  | .varint32 _ => .varint32
  | .varint64 _ => .varint64
  | .lengthPrefixed _ => .lengthPrefixed

/-- A field whose length, if it has one, is a number of 32 bits. -/
def Fits : Field → Prop
  | .lengthPrefixed b => b.length < UInt32.size
  | _ => True

/-! ### Writing -/

/-- The code of a field. -/
def encode : Field → Bytes
  | .fixed16 v => Fixed.toBytes 2 v.toNat
  | .fixed32 v => Fixed.toBytes 4 v.toNat
  | .fixed64 v => Fixed.toBytes 8 v.toNat
  | .varint32 v => Varint.encode v.toNat
  | .varint64 v => Varint.encode v.toNat
  | .lengthPrefixed b => LengthPrefixed.encode b

/-- A buffer with the code of a field appended. -/
def put (buffer : Bytes) (f : Field) : Bytes := buffer ++ f.encode

/-- A buffer with the codes of fields appended one after the other. -/
def putAll (buffer : Bytes) (fs : List Field) : Bytes := fs.foldl put buffer

/-- Appends the code of a field to a buffer, unless it has none. -/
def put? (buffer : Bytes) : Field → Option Bytes
  | .fixed16 v => some (buffer ++ Fixed.toBytes 2 v.toNat)
  | .fixed32 v => some (buffer ++ Fixed.toBytes 4 v.toNat)
  | .fixed64 v => some (buffer ++ Fixed.toBytes 8 v.toNat)
  | .varint32 v => Varint.put32? buffer v
  | .varint64 v => Varint.put64? buffer v
  | .lengthPrefixed b => LengthPrefixed.put? buffer b

/-- Appends the codes of fields to a buffer one after the other, unless one of them has none. -/
def putAll? (buffer : Bytes) (fs : List Field) : Option Bytes := fs.foldlM put? buffer

/-- How many bytes the code of a field takes. -/
def size : Field → Nat
  | .fixed16 _ => 2
  | .fixed32 _ => 4
  | .fixed64 _ => 8
  | .varint32 v => Varint.size64 v.toUInt64
  | .varint64 v => Varint.size64 v
  | .lengthPrefixed b => Varint.size64 (.ofNat b.length) + b.length

/-- Writes the code of a field over the first bytes of a destination, unless it is too short, and
says how many bytes it has. -/
def write? (dst : Bytes) : Field → Option (Bytes × Nat)
  | .fixed16 v => Fixed.write? dst 2 v.toNat
  | .fixed32 v => Fixed.write? dst 4 v.toNat
  | .fixed64 v => Fixed.write? dst 8 v.toNat
  | .varint32 v => Varint.write32? dst v
  | .varint64 v => Varint.write64? dst v
  | .lengthPrefixed b => LengthPrefixed.write? dst b

theorem putAll_eq_append (buffer : Bytes) (fs : List Field) :
    putAll buffer fs = buffer ++ fs.flatMap encode := by
  induction fs generalizing buffer with
  | nil => simp [putAll]
  | cons f fs ih => simpa [putAll, put] using ih (put buffer f)

/-! ### Reading -/

/-- The field of a given kind at the front of a byte string, and the bytes after it. -/
def take? : Kind → Bytes → Option (Field × Bytes)
  | .fixed16, src => (Fixed.take? 2 src).map fun (n, rest) => (.fixed16 (.ofNat n), rest)
  | .fixed32, src => (Fixed.take? 4 src).map fun (n, rest) => (.fixed32 (.ofNat n), rest)
  | .fixed64, src => (Fixed.take? 8 src).map fun (n, rest) => (.fixed64 (.ofNat n), rest)
  | .varint32, src => (Varint.take32? src).map fun (n, rest) => (.varint32 n, rest)
  | .varint64, src => (Varint.take64? src).map fun (n, rest) => (.varint64 n, rest)
  | .lengthPrefixed, src =>
    (LengthPrefixed.take? src).map fun (b, rest) => (.lengthPrefixed b, rest)

/-- Takes fields of the given kinds one after the other from the front of a byte string. One that
cannot be taken leaves the bytes as they are. Each comes with the bytes after it. -/
def takeEach : List Kind → Bytes → List (Option Field × Bytes)
  | [], _ => []
  | k :: ks, src =>
    match take? k src with
    | some (f, rest) => (some f, rest) :: takeEach ks rest
    | none => (none, src) :: takeEach ks src

end Field

end RecordLog
