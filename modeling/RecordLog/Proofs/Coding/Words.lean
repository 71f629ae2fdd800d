import Mathlib.Algebra.Group.Nat.Defs
import RecordLog.Coding.Varint

/-!
# Words and the codes of numbers

Codes are written by shifting groups out of a word and marking them, and read by shifting groups
into their places in a word and joining them bit by bit. Both come to the arithmetic of the codes
of numbers: to shift out a group is to divide, to mark one is to add, and groups that have been put
into their places have no bit in common, so that to join them is to add as well. What does not fit
in the word is lost, as in the remainder by the number of words.

## Main results

* `RecordLog.Varint.gather?_take`: reading joins the groups of a number.
* `RecordLog.Varint.decode32?_eq` and `RecordLog.Varint.decode64?_eq`.
* `RecordLog.Varint.size64_eq`, `RecordLog.Varint.write64?_eq` and `RecordLog.Varint.write32?_eq`.
-/

/-! ### Shifts in a word -/

namespace RecordLog.Word

theorem ofNat_shiftLeft (w n k : Nat) : BitVec.ofNat w n <<< k = BitVec.ofNat w (n <<< k) := by
  apply BitVec.eq_of_toNat_eq
  rw [BitVec.toNat_shiftLeft, BitVec.toNat_ofNat, BitVec.toNat_ofNat, Nat.shiftLeft_eq,
    Nat.shiftLeft_eq, Nat.mod_mul_mod]

/-- A number below a power of two has no bit in common with a multiple of that. -/
theorem or_shiftLeft_eq_add {k g : Nat} (h : g < 2 ^ k) (n : Nat) :
    g ||| n <<< k = g + 2 ^ k * n := by
  rw [Nat.or_comm, ← Nat.shiftLeft_add_eq_or_of_lt h n, Nat.shiftLeft_eq, Nat.add_comm,
    Nat.mul_comm]

theorem ofNat_add_two_pow_mul (w : Nat) {k g : Nat} (h : g < 2 ^ k) (n : Nat) :
    BitVec.ofNat w (g + 2 ^ k * n) = BitVec.ofNat w g ||| BitVec.ofNat w n <<< k := by
  rw [← or_shiftLeft_eq_add h, BitVec.ofNat_or, ofNat_shiftLeft]

end RecordLog.Word

namespace RecordLog.Varint

/-! ### Codes of numbers by cases -/

theorem encode_of_lt {n : Nat} (h : n < 0x80) : encode n = [UInt8.ofNat n] := by
  rw [encode, if_pos h]

theorem encode_of_le {n : Nat} (h : 0x80 ≤ n) :
    encode n = UInt8.ofNat (0x80 + n % 0x80) :: encode (n / 0x80) := by
  rw [encode, if_neg (by omega)]

theorem size_of_lt {n : Nat} (h : n < 0x80) : size n = 1 := by
  rw [size, if_pos h]

theorem size_of_le {n : Nat} (h : 0x80 ≤ n) : size n = size (n / 0x80) + 1 := by
  rw [size, if_neg (by omega)]

/-- A byte below `80` ends a code. -/
theorem decode?_last {b : UInt8} (h : b < 0x80) (groups : Nat) (r : Bytes) :
    decode? (groups + 1) (b :: r) = some (b.toNat, 1) := by
  rw [decode?, if_pos h]

/-- A byte from `80` on gives the lowest group, and what follows the others. -/
theorem decode?_continue {b : UInt8} (h : ¬ b < 0x80) (groups : Nat) (r : Bytes) :
    decode? (groups + 1) (b :: r) =
      (decode? groups r).map fun (n, k) => (b.toNat % 0x80 + 0x80 * n, k + 1) := by
  rw [decode?, if_neg h]

/-! ### Groups of a byte -/

theorem toNat_and_mask (b : UInt8) : (b &&& 0x7f).toNat = b.toNat % 0x80 := by
  rw [UInt8.toNat_and]
  exact Nat.and_two_pow_sub_one_eq_mod b.toNat 7

theorem and_mark_eq_zero_iff (b : UInt8) : b &&& 0x80 = 0 ↔ b < 0x80 := by
  have hall : ∀ n < 256, UInt8.ofNat n &&& 0x80 = 0 ↔ UInt8.ofNat n < 0x80 := by decide +kernel
  have h := hall b.toNat b.toNat_lt
  rwa [UInt8.ofNat_toNat] at h

/-- To mark the lowest group of a word is to add the mark to it. -/
theorem toUInt8_or_mark (v : UInt64) :
    v.toUInt8 ||| 0x80 = UInt8.ofNat (0x80 + v.toNat % 0x80) := by
  have hall : ∀ n < 256, UInt8.ofNat n ||| 0x80 = UInt8.ofNat (0x80 + n % 0x80) := by
    decide +kernel
  have h := hall v.toUInt8.toNat v.toUInt8.toNat_lt
  rwa [UInt8.ofNat_toNat, UInt64.toNat_toUInt8, Nat.mod_mod_of_dvd _ (by decide)] at h

/-! ### Reading -/

section Reading

variable {w : Nat}

/-- A group and the groups above it have no bit in common. -/
theorem ofNat_group_add (w : Nat) {g : Nat} (h : g < 0x80) (n : Nat) :
    BitVec.ofNat w (g + 0x80 * n) = BitVec.ofNat w g ||| BitVec.ofNat w n <<< 7 :=
  Word.ofNat_add_two_pow_mul w (k := 7) h n

theorem gather?_cons (i : Nat) (word : BitVec w) (b : UInt8) (r : Bytes) :
    gather? i word (b :: r) =
      if b < 0x80 then
        some (word ||| BitVec.ofNat w (b.toNat % 0x80) <<< (7 * i), i + 1)
      else
        gather? (i + 1) (word ||| BitVec.ofNat w (b.toNat % 0x80) <<< (7 * i)) r := by
  have hgroup : (b &&& 0x7f).toBitVec.setWidth w = BitVec.ofNat w (b.toNat % 0x80) := by
    rw [← BitVec.ofNat_toNat, UInt8.toNat_toBitVec, toNat_and_mask]
  simp only [gather?, hgroup, and_mark_eq_zero_iff]

/-- **Reading joins the groups of a number**, from its place on, to what there is of a word. -/
theorem gather?_take (groups i : Nat) (word : BitVec w) (src : Bytes) :
    gather? i word (src.take groups) =
      (decode? groups src).map fun (n, k) => (word ||| BitVec.ofNat w n <<< (7 * i), i + k) := by
  induction groups generalizing i word src with
  | zero => rfl
  | succ g ih =>
      cases src with
      | nil => rfl
      | cons b r =>
          rw [List.take_succ_cons, gather?_cons]
          by_cases hb : b < 0x80
          · have hlow : b.toNat % 0x80 = b.toNat := Nat.mod_eq_of_lt hb
            rw [if_pos hb, decode?_last hb, hlow]
            rfl
          · rw [if_neg hb, decode?_continue hb, ih, Option.map_map]
            congr 1
            funext ⟨n, k⟩
            -- The groups that follow stand one place above this one.
            have hgroup := Nat.mod_lt b.toNat (show 0 < 0x80 by decide)
            have hplace : 7 * (i + 1) = 7 + 7 * i := by omega
            have hcount : i + 1 + k = i + (k + 1) := by omega
            simp only [Function.comp_apply, ofNat_group_add w hgroup, BitVec.shiftLeft_or_distrib,
              ← BitVec.shiftLeft_add, BitVec.or_assoc, hplace, hcount]

theorem decode64?_eq (src : Bytes) :
    decode64? src = (decode? maxSize64 src).map fun (n, k) => (.ofNat n, k) := by
  rw [decode64?, gather?_take, Option.map_map]
  congr 1
  funext ⟨n, k⟩
  simp [UInt64.ofNat]

theorem gathered?_eq (src : Bytes) :
    decode32?.gathered? src = (decode? maxSize32 src).map fun (n, k) => (.ofNat n, k) := by
  rw [decode32?.gathered?, gather?_take, Option.map_map]
  congr 1
  funext ⟨n, k⟩
  simp [UInt32.ofNat]

/-- A code of a single byte is read the same either way. -/
theorem decode32?_eq (src : Bytes) :
    decode32? src = (decode? maxSize32 src).map fun (n, k) => (.ofNat n, k) := by
  cases src with
  | nil => exact gathered?_eq []
  | cons b r =>
      rw [decode32?, List.head?_cons]
      by_cases hb : b < 0x80
      · simp only [(and_mark_eq_zero_iff b).2 hb, if_true]
        rw [maxSize32, decode?_last hb, Option.map_some, UInt32.ofNat_uInt8ToNat]
      · have hmarked := mt (and_mark_eq_zero_iff b).1 hb
        simp only [hmarked, if_false]
        exact gathered?_eq (b :: r)

variable {src : Bytes} {k : Nat}

/-- What is read as a word is the remainder of a number. -/
theorem exists_decode?_of_decode64? {v : UInt64} (h : decode64? src = some (v, k)) :
    ∃ n, decode? maxSize64 src = some (n, k) ∧ v.toNat = n % 2 ^ 64 := by
  rw [decode64?_eq, Option.map_eq_some_iff] at h
  obtain ⟨⟨n, k⟩, hread, heq⟩ := h
  cases heq
  exact ⟨n, hread, UInt64.toNat_ofNat'⟩

theorem exists_decode?_of_decode32? {v : UInt32} (h : decode32? src = some (v, k)) :
    ∃ n, decode? maxSize32 src = some (n, k) ∧ v.toNat = n % 2 ^ 32 := by
  rw [decode32?_eq, Option.map_eq_some_iff] at h
  obtain ⟨⟨n, k⟩, hread, heq⟩ := h
  cases heq
  exact ⟨n, hread, UInt32.toNat_ofNat'⟩

end Reading

/-! ### Writing -/

theorem sizeFrom_eq (count : Nat) (v : UInt64) : sizeFrom count v + 1 = count + size v.toNat := by
  fun_induction sizeFrom count v with
  | case1 count v h =>
      have hlt : v.toNat < 0x80 := h
      rw [size_of_lt hlt]
  | case2 count v h ih =>
      have hle : 0x80 ≤ v.toNat := Nat.le_of_not_lt h
      rw [ih, toNat_shiftRight, size_of_le hle]
      omega

theorem size64_eq (v : UInt64) : size64 v = size v.toNat := by
  have := sizeFrom_eq 1 v
  rw [size64]
  omega

/-- **Writing copies the code of a number**, from its place on, over what a destination holds. -/
theorem writeFrom?_eq (dst : Bytes) (i : Nat) (v : UInt64) :
    writeFrom? dst i v =
      (dst.copy? i (encode v.toNat)).map fun dst => (dst, i + size v.toNat) := by
  fun_induction writeFrom? dst i v with
  | case1 dst i v h =>
      have hlt : v.toNat < 0x80 := h
      rw [encode_of_lt hlt, size_of_lt hlt, UInt8.ofNat_uInt64ToNat, Bytes.copy?_singleton]
      cases dst.set? i v.toUInt8 <;> rfl
  | case2 dst i v h ih =>
      have hle : 0x80 ≤ v.toNat := Nat.le_of_not_lt h
      have hcount : i + 1 + size (v.toNat / 0x80) = i + (size (v.toNat / 0x80) + 1) := by omega
      rw [encode_of_le hle, size_of_le hle, ← toUInt8_or_mark, Bytes.copy?_cons, ← hcount]
      simp only [ih, toNat_shiftRight]
      cases dst.set? i (v.toUInt8 ||| 0x80) <;> rfl

theorem write64?_eq (dst : Bytes) (v : UInt64) :
    write64? dst v = (dst.copy? 0 (encode v.toNat)).map fun dst => (dst, size v.toNat) := by
  rw [write64?, writeFrom?_eq, Nat.zero_add]

theorem write32?_eq (dst : Bytes) (v : UInt32) :
    write32? dst v = (dst.copy? 0 (encode v.toNat)).map fun dst => (dst, size v.toNat) := by
  rw [write32?, write64?_eq, UInt32.toNat_toUInt64]

end RecordLog.Varint
