import RecordLog.Bytes.Basic

/-!
# Fixed-width codes

A number is written in a fixed number of bytes, the least significant first. Higher bits are
dropped, so that every number can be written in every width.

## Main definitions

* `RecordLog.Fixed.toBytes` and `RecordLog.Fixed.ofBytes`.
* `RecordLog.Fixed.take?`, the number at the front of a byte string and the bytes after it.
* `RecordLog.Fixed.write?`, which writes a number over the first bytes of a destination.

## Main results

* `RecordLog.Fixed.toBytes_ofBytes`.
-/

namespace RecordLog.Fixed

/-- The bytes of a number in a given width. -/
def toBytes : Nat → Nat → Bytes
  | 0, _ => []
  | w + 1, n => UInt8.ofNat n :: toBytes w (n / 256)

/-- The number that bytes are the code of. -/
def ofBytes : Bytes → Nat
  | [] => 0
  | b :: r => b.toNat + 256 * ofBytes r

@[simp] theorem length_toBytes (w n : Nat) : (toBytes w n).length = w := by
  induction w generalizing n with
  | zero => rfl
  | succ w ih => simp [toBytes, ih]

theorem toBytes_ofBytes (b : Bytes) : toBytes b.length (ofBytes b) = b := by
  induction b with
  | nil => rfl
  | cons a r ih =>
      have ha := a.toNat_lt
      have hdiv : (a.toNat + 256 * ofBytes r) / 256 = ofBytes r := by omega
      have hmod : UInt8.ofNat (a.toNat + 256 * ofBytes r) = a := by
        apply UInt8.toNat_inj.1
        rw [UInt8.toNat_ofNat']
        omega
      simp only [ofBytes, List.length_cons, toBytes, hdiv, hmod, ih]

/-- The number at the front of a byte string in a given width, and the bytes after it. -/
def take? (w : Nat) (src : Bytes) : Option (Nat × Bytes) :=
  if w ≤ src.length then some (ofBytes (src.take w), src.drop w) else none

/-- Writes a number over the first bytes of a destination, unless it is too short, and says how
many bytes that takes. -/
def write? (dst : Bytes) (w n : Nat) : Option (Bytes × Nat) := do
  let dst ← dst.copy? 0 (toBytes w n)
  return (dst, w)

end RecordLog.Fixed
