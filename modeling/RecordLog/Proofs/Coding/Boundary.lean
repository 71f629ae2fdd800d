import RecordLog.Coding.Field
import RecordLog.Proofs.Coding.Words

/-!
# Where the code of a field ends

The code of a field tells by itself where it ends. Whatever bytes come behind it, reading gives the
field back and stops right there; and as long as a single byte of the code is missing, reading
fails. Both facts are proved for each code from the same data: a variable-width code ends at its
first byte below `80`, a fixed-width one after its width, and a length-prefixed one after as many
bytes as its header says.

## Main results

* `RecordLog.Varint.decode?_encode_append` and `RecordLog.Varint.decode?_take_encode`.
* `RecordLog.LengthPrefixed.take?_encode_append` and `RecordLog.LengthPrefixed.take?_take_encode`.
* `RecordLog.Field.take?_encode_append` and `RecordLog.Field.take?_take_encode`, the same for
  fields of every kind.
-/

namespace RecordLog

/-! ### Variable-width codes -/

namespace Varint

theorem size_le_of_lt {n groups : Nat} (hpos : 0 < groups) (h : n < 0x80 ^ groups) :
    size n ≤ groups := by
  induction groups generalizing n with
  | zero => omega
  | succ g ih =>
      rw [size]
      split
      · omega
      · rename_i hn
        have hdiv : n / 0x80 < 0x80 ^ g := by
          rw [Nat.div_lt_iff_lt_mul (by decide), ← Nat.pow_succ]
          exact h
        have hg : 0 < g := by
          rcases Nat.eq_zero_or_pos g with rfl | hg
          · simp at h
            omega
          · exact hg
        have := ih hg hdiv
        omega

theorem encode_ne_nil (n : Nat) : encode n ≠ [] := by
  rw [← List.length_pos_iff, length_encode]
  exact size_pos n

theorem size_le_maxSize32 (n : UInt32) : size n.toNat ≤ maxSize32 :=
  size_le_of_lt (by decide) (Nat.lt_trans n.toNat_lt (by decide))

theorem size_le_maxSize64 (n : UInt64) : size n.toNat ≤ maxSize64 :=
  size_le_of_lt (by decide) (Nat.lt_trans n.toNat_lt (by decide))

/-- A group with the mark that another one follows is still a byte. -/
theorem marked_lt_size (n : Nat) : 0x80 + n % 0x80 < UInt8.size := by
  have := Nat.mod_lt n (show 0 < 0x80 by decide)
  change 0x80 + n % 0x80 < 256
  omega

theorem not_marked_lt (n : Nat) : ¬ UInt8.ofNat (0x80 + n % 0x80) < 0x80 := by
  rw [UInt8.ofNat_lt_iff (marked_lt_size n), Nat.not_lt]
  exact Nat.le_add_right _ _

theorem lt_size_of_lt {n : Nat} (h : n < 0x80) : n < UInt8.size :=
  Nat.lt_trans h (by decide)

theorem ofNat_lt_of_lt {n : Nat} (h : n < 0x80) : UInt8.ofNat n < 0x80 :=
  (UInt8.ofNat_lt_iff (lt_size_of_lt h)).2 h

/-- The code of a number is read back whatever follows it, if it has no more groups than are
read. -/
theorem decode?_encode_append {n groups : Nat} (h : size n ≤ groups) (t : Bytes) :
    decode? groups (encode n ++ t) = some (n, size n) := by
  induction groups generalizing n with
  | zero =>
      have := size_pos n
      omega
  | succ g ih =>
      by_cases hn : n < 0x80
      · have hvalue := UInt8.toNat_ofNat_of_lt' (lt_size_of_lt hn)
        rw [encode_of_lt hn, List.singleton_append, decode?_last (ofNat_lt_of_lt hn), hvalue,
          size, if_pos hn]
      · have hle : 0x80 ≤ n := by omega
        have hmarked := UInt8.toNat_ofNat_of_lt' (marked_lt_size n)
        have hsize : size (n / 0x80) ≤ g := by
          rw [size_of_le hle] at h
          omega
        have hvalue : (0x80 + n % 0x80) % 0x80 + 0x80 * (n / 0x80) = n := by omega
        rw [encode_of_le hle, List.cons_append, decode?_continue (not_marked_lt n), ih hsize,
          Option.map_some, hmarked, size_of_le hle]
        simp only [hvalue]

/-- A code that is cut short has no last byte. -/
theorem decode?_take_encode {n k : Nat} (h : k < (encode n).length) (groups : Nat) :
    decode? groups ((encode n).take k) = none := by
  induction groups generalizing n k with
  | zero => rw [decode?]
  | succ g ih =>
      cases k with
      | zero => rw [List.take_zero, decode?]
      | succ k =>
          by_cases hn : n < 0x80
          · rw [encode_of_lt hn] at h
            simp at h
          · have hle : 0x80 ≤ n := by omega
            rw [encode_of_le hle] at h ⊢
            rw [List.length_cons, Nat.add_lt_add_iff_right] at h
            rw [List.take_succ_cons, decode?_continue (not_marked_lt n), ih h, Option.map_none]

theorem drop_size_encode_append (n : Nat) (t : Bytes) : (encode n ++ t).drop (size n) = t := by
  rw [← length_encode, List.drop_left]

theorem take32?_encode_append (n : UInt32) (t : Bytes) :
    take32? (encode n.toNat ++ t) = some (n, t) := by
  rw [take32?, decode32?_eq, decode?_encode_append (size_le_maxSize32 n)]
  simp [drop_size_encode_append]

theorem take64?_encode_append (n : UInt64) (t : Bytes) :
    take64? (encode n.toNat ++ t) = some (n, t) := by
  rw [take64?, decode64?_eq, decode?_encode_append (size_le_maxSize64 n)]
  simp [drop_size_encode_append]

theorem take32?_take_encode {n k : Nat} (h : k < (encode n).length) :
    take32? ((encode n).take k) = none := by
  rw [take32?, decode32?_eq, decode?_take_encode h]
  rfl

theorem take64?_take_encode {n k : Nat} (h : k < (encode n).length) :
    take64? ((encode n).take k) = none := by
  rw [take64?, decode64?_eq, decode?_take_encode h]
  rfl

end Varint

/-! ### Byte strings behind their length -/

namespace LengthPrefixed

theorem take32?_header_append {b : Bytes} (h : b.length < UInt32.size) (t : Bytes) :
    Varint.take32? (Varint.encode b.length ++ t) = some (UInt32.ofNat b.length, t) := by
  have := Varint.take32?_encode_append (UInt32.ofNat b.length) t
  rwa [UInt32.toNat_ofNat_of_lt' h] at this

/-- Behind a header stand as many bytes as it says, or reading fails. -/
theorem take?_header_append {b : Bytes} (h : b.length < UInt32.size) (body : Bytes) :
    take? (Varint.encode b.length ++ body) =
      if b.length ≤ body.length then some (body.take b.length, body.drop b.length) else none := by
  rw [take?, take32?_header_append h]
  simp only [UInt32.toNat_ofNat_of_lt' h]

theorem take?_encode_append {b : Bytes} (h : b.length < UInt32.size) (t : Bytes) :
    take? (encode b ++ t) = some (b, t) := by
  rw [encode, List.append_assoc, take?_header_append h, if_pos (by simp), List.take_left,
    List.drop_left]

/-- A code is cut short within its header or behind it; either way it cannot be read. -/
theorem take?_take_encode {b : Bytes} (h : b.length < UInt32.size) {k : Nat}
    (hk : k < (encode b).length) : take? ((encode b).take k) = none := by
  rcases Nat.lt_or_ge k (Varint.encode b.length).length with hheader | hbody
  · have hcut : (encode b).take k = (Varint.encode b.length).take k := by
      rw [encode, List.take_append_of_le_length (Nat.le_of_lt hheader)]
    rw [hcut, take?, Varint.take32?_take_encode hheader]
  · obtain ⟨j, rfl⟩ := Nat.exists_eq_add_of_le hbody
    rw [encode, List.length_append, Nat.add_lt_add_iff_left] at hk
    have hshort : ¬ b.length ≤ (b.take j).length := by
      rw [List.length_take]
      omega
    rw [encode, List.take_length_add_append, take?_header_append h, if_neg hshort]

end LengthPrefixed

/-! ### Fixed-width codes -/

namespace Fixed

theorem ofBytes_toBytes (w n : Nat) : ofBytes (toBytes w n) = n % 256 ^ w := by
  induction w generalizing n with
  | zero => simp [toBytes, ofBytes, Nat.mod_one]
  | succ w ih =>
      rw [toBytes, ofBytes, ih, UInt8.toNat_ofNat', show 256 ^ (w + 1) = 256 * 256 ^ w by
        rw [Nat.pow_succ, Nat.mul_comm], Nat.mod_mul]

theorem ofBytes_lt (b : Bytes) : ofBytes b < 256 ^ b.length := by
  induction b with
  | nil => simp [ofBytes]
  | cons a r ih =>
      have ha := a.toNat_lt
      simp only [ofBytes, List.length_cons, Nat.pow_succ]
      omega

theorem take?_toBytes_append (w n : Nat) (t : Bytes) :
    take? w (toBytes w n ++ t) = some (n % 256 ^ w, t) := by
  simp [take?, ofBytes_toBytes]

theorem take?_toBytes_append_of_lt {w n : Nat} (h : n < 256 ^ w) (t : Bytes) :
    take? w (toBytes w n ++ t) = some (n, t) := by
  rw [take?_toBytes_append, Nat.mod_eq_of_lt h]

theorem take?_of_length_lt {w : Nat} {src : Bytes} (h : src.length < w) : take? w src = none := by
  rw [take?, if_neg (by omega)]

theorem take?_take_toBytes {w n k : Nat} (h : k < w) : take? w ((toBytes w n).take k) = none := by
  apply take?_of_length_lt
  rw [List.length_take, length_toBytes]
  omega

end Fixed

/-! ### Fields -/

namespace Field

theorem encode_ne_nil (f : Field) : f.encode ≠ [] := by
  cases f with
  | fixed16 | fixed32 | fixed64 => simp [encode, Fixed.toBytes]
  | varint32 | varint64 => exact Varint.encode_ne_nil _
  | lengthPrefixed b => exact List.append_ne_nil_of_left_ne_nil (Varint.encode_ne_nil _) b

/-- **A field is read back from its code, whatever follows.** -/
theorem take?_encode_append {f : Field} (h : f.Fits) (t : Bytes) :
    take? f.kind (f.encode ++ t) = some (f, t) := by
  cases f with
  | fixed16 v =>
      have hread := Fixed.take?_toBytes_append_of_lt (w := 2) v.toNat_lt t
      simp [kind, encode, take?, hread]
  | fixed32 v =>
      have hread := Fixed.take?_toBytes_append_of_lt (w := 4) v.toNat_lt t
      simp [kind, encode, take?, hread]
  | fixed64 v =>
      have hread := Fixed.take?_toBytes_append_of_lt (w := 8) v.toNat_lt t
      simp [kind, encode, take?, hread]
  | varint32 v => simp [kind, encode, take?, Varint.take32?_encode_append]
  | varint64 v => simp [kind, encode, take?, Varint.take64?_encode_append]
  | lengthPrefixed b => simp [kind, encode, take?, LengthPrefixed.take?_encode_append h]

/-- **A field whose code is cut short cannot be read.** -/
theorem take?_take_encode {f : Field} (h : f.Fits) {k : Nat} (hk : k < f.encode.length) :
    take? f.kind (f.encode.take k) = none := by
  cases f with
  | fixed16 v | fixed32 v | fixed64 v =>
      rw [encode, Fixed.length_toBytes] at hk
      simp [kind, encode, take?, Fixed.take?_take_toBytes hk]
  | varint32 v => simp [kind, encode, take?, Varint.take32?_take_encode hk]
  | varint64 v => simp [kind, encode, take?, Varint.take64?_take_encode hk]
  | lengthPrefixed b => simp [kind, encode, take?, LengthPrefixed.take?_take_encode h hk]

end Field

end RecordLog
