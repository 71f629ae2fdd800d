import RecordLog.Bytes.Basic

/-!
# Views of byte strings

A view shows a contiguous piece of a byte string. It can be narrowed at either end, which never
goes beyond what it shows, and asked for single bytes, counted from the start or, by a negative
number, from the end. A request that lies outside the view is a `View.Fault` and leaves the view
as it was.

## Main definitions

* `RecordLog.View`, with `View.byte`, `View.dropFirst`, `View.dropLast` and `View.tail`.
* `RecordLog.View.byteAt`, the byte at an index that is a signed word.
* `RecordLog.View.Fault`, the requests that a view cannot meet, and `View.Fault.message`.

## Main results

* `RecordLog.View.dropFirst_eq_ok_iff`, `RecordLog.View.dropLast_eq_ok_iff` — narrowing succeeds
  exactly up to the size of the view.
-/

namespace RecordLog

/-- A view of a byte string, given by the bytes that it shows. -/
structure View where
  bytes : Bytes
  deriving DecidableEq, Repr

namespace View

/-- The view of no bytes. -/
def empty : View := ⟨[]⟩

/-- Number of bytes shown. -/
def size (v : View) : Nat := v.bytes.length

/-- Whether nothing is shown. -/
def isEmpty (v : View) : Bool := v.bytes.isEmpty

/-- The view of a byte string up to its first zero byte. -/
def ofNulTerminated (b : Bytes) : View := ⟨b.untilNul⟩

/-- A request that a view cannot meet, with the amount asked for and the size of the view. -/
inductive Fault
  | index (n : Int) (size : Nat)
  | dropFirst (n size : Nat)
  | dropLast (n size : Nat)
  | tail (n size : Nat)
  deriving DecidableEq, Repr

/-- What is said about a request that a view cannot meet. -/
def Fault.message : Fault → String
  | .index n size => s!"byte view index {n} out of range for length {size}"
  | .dropFirst n size => s!"remove_prefix({n}) exceeds view length {size}"
  | .dropLast n size => s!"remove_suffix({n}) exceeds view length {size}"
  | .tail n size => s!"substr start {n} exceeds view length {size}"

/-- The byte at position `n`; a negative `n` counts from the end, `-1` being the last byte. -/
def byte (v : View) (n : Int) : Except Fault UInt8 :=
  let position := if n < 0 then v.size + n else n
  match if position < 0 then none else v.bytes[position.toNat]? with
  | some b => .ok b
  | none => .error (.index n v.size)

/-- The position that an index word asks for among `size` bytes, unless it lies before all of them.
How far a negative index counts from the end is an unsigned word: of the least index, which has no
negative among the signed words, the magnitude is read as unsigned. -/
def position? (size : Nat) (n : Int64) : Option Nat :=
  if n < 0 then
    let back := n.abs.toUInt64.toNat
    if back ≤ size then some (size - back) else none
  else
    some n.toUInt64.toNat

/-- The byte at an index word. -/
def byteAt (v : View) (n : Int64) : Except Fault UInt8 :=
  match (position? v.size n).bind fun i => v.bytes[i]? with
  | some b => .ok b
  | none => .error (.index n.toInt v.size)

/-- The view without its first `n` bytes. -/
def dropFirst (v : View) (n : Nat) : Except Fault View :=
  if n ≤ v.size then .ok ⟨v.bytes.drop n⟩ else .error (.dropFirst n v.size)

/-- The view without its last `n` bytes. -/
def dropLast (v : View) (n : Nat) : Except Fault View :=
  if n ≤ v.size then .ok ⟨v.bytes.take (v.size - n)⟩ else .error (.dropLast n v.size)

/-- The bytes shown from position `n` on. -/
def tail (v : View) (n : Nat) : Except Fault Bytes :=
  if n ≤ v.size then .ok (v.bytes.drop n) else .error (.tail n v.size)

/-- Whether the view begins with the bytes of another. -/
def startsWith (v w : View) : Bool := w.bytes.isPrefixOf v.bytes

/-- Whether the view ends with the bytes of another. -/
def endsWith (v w : View) : Bool := w.bytes.isSuffixOf v.bytes

theorem dropFirst_eq_ok_iff {v w : View} {n : Nat} :
    v.dropFirst n = .ok w ↔ n ≤ v.size ∧ w = ⟨v.bytes.drop n⟩ := by
  by_cases h : n ≤ v.size <;> simp [dropFirst, h, eq_comm]

theorem dropLast_eq_ok_iff {v w : View} {n : Nat} :
    v.dropLast n = .ok w ↔ n ≤ v.size ∧ w = ⟨v.bytes.take (v.size - n)⟩ := by
  by_cases h : n ≤ v.size <;> simp [dropLast, h, eq_comm]

end View

end RecordLog
