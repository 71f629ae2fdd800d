import RecordLog.Bytes.View
import RecordLog.Proofs.Coding.Progress

/-!
# Reading by accesses that can go wrong

Fields are read with operations that stop where the bytes end, so that nothing can go wrong with
them. Here a cursor reads the same fields from a view by accesses that do go wrong: to a byte at a
position, to the first few bytes, and to what stands behind these. An access beyond the end of the
view is a `Cursor.Fault`. A cursor compares sizes before it makes an access, and trusts what the
variable-width codes say of their own length. None of its accesses goes wrong, whatever the bytes
are, and it reads what decoders read.

## Main definitions

* `RecordLog.Cursor.Fault`, with the accesses `Cursor.byte`, `Cursor.front` and `Cursor.behind`.
* `RecordLog.Cursor.field?` and `RecordLog.Cursor.read`.

## Main results

* `RecordLog.Cursor.read_eq`: no access goes wrong, and what is read is what a decoder reads.
-/

namespace RecordLog

namespace Cursor

/-! ### Accesses -/

/-- An access beyond the end of a view: a request that a view cannot meet, or one for more bytes
from the front than there are. -/
inductive Fault
  | view (e : View.Fault)
  | front (n size : Nat)
  deriving DecidableEq, Repr

/-- The byte at a position. -/
def byte (v : View) (i : Nat) : Except Fault UInt8 := (v.byte i).mapError .view

/-- The first `n` bytes. -/
def front (v : View) (n : Nat) : Except Fault View :=
  if n ≤ v.size then .ok ⟨v.bytes.take n⟩ else .error (.front n v.size)

/-- What stands behind the first `n` bytes. -/
def behind (v : View) (n : Nat) : Except Fault View := (v.dropFirst n).mapError .view

theorem byte_of_lt {v : View} {i : Nat} (h : i < v.size) : byte v i = .ok (v.bytes.get ⟨i, h⟩) := by
  have hbyte : v.bytes[i]? = some (v.bytes.get ⟨i, h⟩) := List.getElem?_eq_getElem h
  have hpos : ¬ (i : Int) < 0 := by omega
  have hview : v.byte i = .ok (v.bytes.get ⟨i, h⟩) := by simp [View.byte, hpos, hbyte]
  rw [byte, hview]
  rfl

theorem front_of_le {v : View} {n : Nat} (h : n ≤ v.size) : front v n = .ok ⟨v.bytes.take n⟩ :=
  if_pos h

theorem behind_of_le {v : View} {n : Nat} (h : n ≤ v.size) : behind v n = .ok ⟨v.bytes.drop n⟩ := by
  rw [behind, View.dropFirst_eq_ok_iff.2 ⟨h, rfl⟩]
  rfl

/-! ### Reading -/

/-- The number that is written in `w` bytes from a position on. -/
def number (v : View) : Nat → Nat → Except Fault Nat
  | _, 0 => .ok 0
  | i, w + 1 => do
    let b ← byte v i
    let n ← number v (i + 1) w
    return b.toNat + 256 * n

/-- Takes the first `n` bytes, if there are as many. -/
def take? (v : View) (n : Nat) : Except Fault (Option View × View) :=
  if v.size < n then
    .ok (none, v)
  else do
    let bytes ← front v n
    let rest ← behind v n
    return (some bytes, rest)

/-- Takes a number in a fixed width. -/
def fixed? (v : View) (w : Nat) : Except Fault (Option Nat × View) := do
  match ← take? v w with
  | (none, v) => return (none, v)
  | (some bytes, rest) =>
    let n ← number bytes 0 w
    return (some n, rest)

/-- Goes behind a code that has been decoded, as far as that says. -/
def skip? {α : Type} (v : View) : Option (α × Nat) → Except Fault (Option α × View)
  | none => .ok (none, v)
  | some (x, size) => do
    let rest ← behind v size
    return (some x, rest)

/-- Takes a number of 32 bits in a variable width. -/
def varint32? (v : View) : Except Fault (Option UInt32 × View) := skip? v (Varint.decode32? v.bytes)

/-- Takes a number of 64 bits in a variable width. -/
def varint64? (v : View) : Except Fault (Option UInt64 × View) := skip? v (Varint.decode64? v.bytes)

/-- Takes a byte string behind its length. The length is read with a cursor of its own, which is
given up again if the bytes do not reach. -/
def lengthPrefixed? (v : View) : Except Fault (Option View × View) := do
  match ← varint32? v with
  | (none, _) => return (none, v)
  | (some n, cursor) =>
    if cursor.size < n.toNat then
      return (none, v)
    else
      let value ← front cursor n.toNat
      let rest ← behind cursor n.toNat
      return (some value, rest)

/-- Takes a field of a given kind. -/
def field? (v : View) : Field.Kind → Except Fault (Option Field × View)
  | .fixed16 => do
    let (n, rest) ← fixed? v 2
    return (n.map fun n => .fixed16 (.ofNat n), rest)
  | .fixed32 => do
    let (n, rest) ← fixed? v 4
    return (n.map fun n => .fixed32 (.ofNat n), rest)
  | .fixed64 => do
    let (n, rest) ← fixed? v 8
    return (n.map fun n => .fixed64 (.ofNat n), rest)
  | .varint32 => do
    let (n, rest) ← varint32? v
    return (n.map .varint32, rest)
  | .varint64 => do
    let (n, rest) ← varint64? v
    return (n.map .varint64, rest)
  | .lengthPrefixed => do
    let (value, rest) ← lengthPrefixed? v
    return (value.map fun value => .lengthPrefixed value.bytes, rest)

/-- Takes a field of a given kind, or says what is wrong. -/
def read (v : View) (k : Field.Kind) : Except Fault (Except Decoder.Fault Field × View) := do
  match ← field? v k with
  | (some f, rest) => return (.ok f, rest)
  | (none, rest) => return (.error (Decoder.fault k v.size), rest)

/-! ### No access goes wrong -/

/-- What a cursor over some bytes comes to that takes what is at the front of them or, if there is
nothing to take, stays. -/
def taken {α : Type} (src : Bytes) (r : Option (α × Bytes)) : Option α × View :=
  (r.map Prod.fst, ⟨(r.map Prod.snd).getD src⟩)

/-- A number is read from positions within the bytes. -/
theorem number_eq {v : View} {i w : Nat} (h : i + w ≤ v.size) :
    number v i w = .ok (Fixed.ofBytes ((v.bytes.drop i).take w)) := by
  induction w generalizing i with
  | zero => simp [number, Fixed.ofBytes]
  | succ w ih =>
      have hlt : i < v.bytes.length := by
        change i + (w + 1) ≤ v.bytes.length at h
        omega
      have hrest := ih (i := i + 1) (by omega)
      rw [number, byte_of_lt hlt, hrest, List.drop_eq_getElem_cons hlt, List.take_succ_cons,
        Fixed.ofBytes]
      rfl

theorem take?_eq (src : Bytes) (n : Nat) :
    take? ⟨src⟩ n =
      .ok (if n ≤ src.length then (some ⟨src.take n⟩, ⟨src.drop n⟩) else (none, ⟨src⟩)) := by
  by_cases h : n ≤ src.length
  · have hsize : ¬ View.size ⟨src⟩ < n := Nat.not_lt.2 h
    rw [take?, if_neg hsize, front_of_le h, behind_of_le h, if_pos h]
    rfl
  · have hsize : View.size ⟨src⟩ < n := Nat.not_le.1 h
    rw [take?, if_pos hsize, if_neg h]

theorem fixed?_eq (src : Bytes) (w : Nat) :
    fixed? ⟨src⟩ w = .ok (taken src (Fixed.take? w src)) := by
  by_cases h : w ≤ src.length
  · have hnumber : number ⟨src.take w⟩ 0 w = .ok (Fixed.ofBytes (src.take w)) := by
      rw [number_eq (by simp [View.size, h]), List.drop_zero, List.take_take, Nat.min_self]
    rw [fixed?, take?_eq, if_pos h, Fixed.take?, if_pos h]
    simp [hnumber, taken, bind, Except.bind, pure, Except.pure]
  · rw [fixed?, take?_eq, if_neg h, Fixed.take?, if_neg h]
    rfl

/-- A code that has been decoded is no longer than the bytes that it was decoded from. -/
theorem skip?_eq {α : Type} {src : Bytes} {r : Option (α × Nat)}
    (h : ∀ x size, r = some (x, size) → size ≤ src.length) :
    skip? ⟨src⟩ r = .ok (taken src (r.map fun (x, size) => (x, src.drop size))) := by
  cases r with
  | none => rfl
  | some x =>
      obtain ⟨x, size⟩ := x
      rw [skip?, behind_of_le (h x size rfl)]
      rfl

theorem varint32?_eq (src : Bytes) : varint32? ⟨src⟩ = .ok (taken src (Varint.take32? src)) := by
  refine skip?_eq fun n size h => ?_
  exact (Varint.decode32?_bounds h).2

theorem varint64?_eq (src : Bytes) : varint64? ⟨src⟩ = .ok (taken src (Varint.take64? src)) := by
  refine skip?_eq fun n size h => ?_
  exact (Varint.decode64?_bounds h).2

theorem lengthPrefixed?_eq (src : Bytes) :
    lengthPrefixed? ⟨src⟩ =
      .ok (taken src ((LengthPrefixed.take? src).map fun (b, rest) => (⟨b⟩, rest))) := by
  rw [lengthPrefixed?, varint32?_eq, LengthPrefixed.take?]
  cases Varint.take32? src with
  | none => rfl
  | some header =>
      obtain ⟨n, rest⟩ := header
      by_cases h : n.toNat ≤ rest.length
      · have hsize : ¬ View.size ⟨rest⟩ < n.toNat := Nat.not_lt.2 h
        have hfront : front ⟨rest⟩ n.toNat = .ok ⟨rest.take n.toNat⟩ := front_of_le h
        have hbehind : behind ⟨rest⟩ n.toNat = .ok ⟨rest.drop n.toNat⟩ := behind_of_le h
        simp [taken, hsize, hfront, hbehind, h, bind, Except.bind, pure, Except.pure]
      · have hsize : View.size ⟨rest⟩ < n.toNat := Nat.not_le.1 h
        simp [taken, hsize, h, bind, Except.bind, pure, Except.pure]

/-- What is made of something that has been taken has been taken, too. -/
theorem map_taken {α β : Type} (f : α → β) (src : Bytes) (r : Option (α × Bytes)) :
    ((taken src r).1.map f, (taken src r).2) = taken src (r.map fun (x, rest) => (f x, rest)) := by
  cases r <;> rfl

theorem field?_eq (src : Bytes) (k : Field.Kind) :
    field? ⟨src⟩ k = .ok (taken src (Field.take? k src)) := by
  cases k with
  | fixed16 =>
      rw [field?, fixed?_eq]
      exact congrArg Except.ok (map_taken _ src _)
  | fixed32 =>
      rw [field?, fixed?_eq]
      exact congrArg Except.ok (map_taken _ src _)
  | fixed64 =>
      rw [field?, fixed?_eq]
      exact congrArg Except.ok (map_taken _ src _)
  | varint32 =>
      rw [field?, varint32?_eq]
      exact congrArg Except.ok (map_taken _ src _)
  | varint64 =>
      rw [field?, varint64?_eq]
      exact congrArg Except.ok (map_taken _ src _)
  | lengthPrefixed =>
      rw [field?, lengthPrefixed?_eq, Field.take?]
      refine congrArg Except.ok ((map_taken _ src _).trans ?_)
      rw [Option.map_map]
      rfl

/-- **No access goes wrong**, whatever the bytes are, and what is read is what a decoder reads. -/
theorem read_eq (d : Decoder) (k : Field.Kind) :
    read ⟨d.remaining⟩ k = .ok ((d.read k).1, ⟨(d.read k).2.remaining⟩) := by
  rw [read, field?_eq, Decoder.read]
  cases Field.take? k d.remaining <;> rfl

end Cursor

end RecordLog
