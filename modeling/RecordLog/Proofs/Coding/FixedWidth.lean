import Mathlib.Algebra.BigOperators.Ring.Finset
import Mathlib.Tactic.Ring
import RecordLog.Proofs.Coding.InPlace

/-!
# Words of fixed width

Words of 16, 32 and 64 bits are written in as many bytes as they take, the least significant first.
A machine that keeps the bytes of its words in this order reads a word by taking the bytes as they
stand. Another one shifts each byte into its place and joins them bit by bit; a word of 64 bits it
joins from two of 32. Either way a word is the sum of its bytes, each times a power of 256, since
bytes in different places have no bit in common.

So words and byte strings of the right length are in bijection, and the codes nest: the code of a
word is the code of its lower half with that of its upper half behind it.

## Main definitions

* `RecordLog.Fixed.ByteOrder`, the order in which a machine keeps the bytes of its words.
* `RecordLog.Fixed.word16?`, `RecordLog.Fixed.word32?` and `RecordLog.Fixed.word64?`, the word at
  the front of a byte string.
* `RecordLog.Fixed.IsWordCode`, what is asked of the code of a word.
* `RecordLog.Fixed.AreNumbers`, words that are the numbers of a width.

## Main results

* `RecordLog.Fixed.ofBytes_take_eq_sum`, `RecordLog.Fixed.ofBytes_take_add` and
  `RecordLog.Fixed.toBytes_add`.
* `RecordLog.Fixed.word?_eq` and `RecordLog.Fixed.word64?_eq`: the order of the machine does not
  matter.
* `RecordLog.Fixed.AreNumbers.isWordCode`, which is proved once for all widths.
* `RecordLog.Fixed.word_codes_nest`.
-/

namespace RecordLog.Fixed

/-! ### Numbers and their bytes -/

/-- Bytes are the digits of their number. -/
theorem ofBytes_take_eq_sum {w : Nat} {src : Bytes} (h : w ≤ src.length) :
    ofBytes (src.take w) = ∑ i ∈ Finset.range w, (src.getD i 0).toNat * 256 ^ i := by
  induction w generalizing src with
  | zero => rw [List.take_zero, Finset.sum_range_zero, ofBytes]
  | succ w ih =>
      cases src with
      | nil => exact absurd h (Nat.not_succ_le_zero w)
      | cons b r =>
          rw [List.take_succ_cons, ofBytes, ih (Nat.le_of_succ_le_succ h), Finset.sum_range_succ',
            Finset.mul_sum, Nat.add_comm]
          congr 1
          · refine Finset.sum_congr rfl fun i _ => ?_
            rw [List.getD_cons_succ, Nat.pow_succ]
            ring
          · rw [List.getD_cons_zero, Nat.pow_zero, Nat.mul_one]

theorem ofBytes_take_lt (w : Nat) (src : Bytes) : ofBytes (src.take w) < 256 ^ w :=
  Nat.lt_of_lt_of_le (ofBytes_lt (src.take w))
    (Nat.pow_le_pow_right (by decide) (List.length_take_le w src))

theorem ofBytes_append (a b : Bytes) :
    ofBytes (a ++ b) = ofBytes a + 256 ^ a.length * ofBytes b := by
  induction a with
  | nil => rw [List.nil_append, ofBytes, List.length_nil, Nat.pow_zero, Nat.one_mul, Nat.zero_add]
  | cons c a ih =>
      rw [List.cons_append, ofBytes, ih, ofBytes, List.length_cons, Nat.pow_succ]
      ring

/-- The number of a row of bytes is put together from those of its parts. -/
theorem ofBytes_take_add {k : Nat} {src : Bytes} (h : k ≤ src.length) (w : Nat) :
    ofBytes (src.take (k + w)) =
      ofBytes (src.take k) + 256 ^ k * ofBytes ((src.drop k).take w) := by
  rw [List.take_add, ofBytes_append, List.length_take, Nat.min_eq_left h]

theorem toBytes_mod (w n : Nat) : toBytes w (n % 256 ^ w) = toBytes w n := by
  have hback := toBytes_ofBytes (toBytes w n)
  rwa [length_toBytes, ofBytes_toBytes] at hback

/-- The bytes of a number are those of its lower part, and behind them those of its upper part. -/
theorem toBytes_add (k w n : Nat) :
    toBytes (k + w) n = toBytes k (n % 256 ^ k) ++ toBytes w (n / 256 ^ k) := by
  rw [toBytes_mod]
  induction k generalizing n with
  | zero => rw [Nat.zero_add, Nat.pow_zero, Nat.div_one, toBytes, List.nil_append]
  | succ k ih =>
      rw [Nat.succ_add, toBytes, ih, toBytes, List.cons_append, Nat.div_div_eq_div_mul,
        Nat.pow_succ, Nat.mul_comm 256]

/-! ### Words at the front of bytes -/

/-- The order in which a machine keeps the bytes of its words. -/
inductive ByteOrder
  /-- The least significant byte first. -/
  | leastFirst
  /-- The most significant byte first. -/
  | mostFirst
  deriving DecidableEq, Repr

/-- Bytes joined into a word, each shifted into its place, the first into place `i`. -/
def joined {bits : Nat} (i : Nat) : Bytes → BitVec bits
  | [] => 0
  | b :: r => b.toBitVec.setWidth bits <<< (8 * i) ||| joined (i + 1) r

/-- The word in the first `w` bytes of a byte string, if there are as many. -/
def word? (o : ByteOrder) (bits w : Nat) (src : Bytes) : Option (BitVec bits) := do
  let raw ← src.front? w
  match o with
  | .leastFirst => return .ofNat bits (ofBytes raw)
  | .mostFirst => return joined 0 raw

/-- The word of 16 bits at the front of a byte string. -/
def word16? (o : ByteOrder) (src : Bytes) : Option UInt16 := (word? o 16 2 src).map .ofBitVec

/-- The word of 32 bits at the front of a byte string. -/
def word32? (o : ByteOrder) (src : Bytes) : Option UInt32 := (word? o 32 4 src).map .ofBitVec

/-- The word of 64 bits at the front of a byte string, joined from its halves by machines that do
not keep the least significant byte first. -/
def word64? (o : ByteOrder) (src : Bytes) : Option UInt64 :=
  match o with
  | .leastFirst => (word? .leastFirst 64 8 src).map .ofBitVec
  | .mostFirst => do
    let low ← word32? .mostFirst src
    let high ← word32? .mostFirst (src.drop 4)
    return high.toUInt64 <<< 32 ||| low.toUInt64

theorem joined_eq {bits : Nat} (i : Nat) (b : Bytes) :
    joined i b = BitVec.ofNat bits (ofBytes b) <<< (8 * i) := by
  induction b generalizing i with
  | nil => rw [joined, ofBytes]; exact (BitVec.zero_shiftLeft (8 * i)).symm
  | cons b r ih =>
      have hbyte : b.toBitVec.setWidth bits = BitVec.ofNat bits b.toNat := by
        rw [← BitVec.ofNat_toNat, UInt8.toNat_toBitVec]
      have hsplit := Word.ofNat_add_two_pow_mul bits (k := 8) b.toNat_lt (ofBytes r)
      have hplace : 8 * (i + 1) = 8 + 8 * i := by omega
      rw [joined, ih, hbyte, hplace, BitVec.shiftLeft_add, ← BitVec.shiftLeft_or_distrib, ← hsplit]
      rfl

/-- **The order of the machine does not matter** where a word is read. -/
theorem word?_eq (o : ByteOrder) (bits w : Nat) (src : Bytes) :
    word? o bits w src = (take? w src).map fun (n, _) => BitVec.ofNat bits n := by
  rw [word?, Bytes.front?, take?]
  by_cases h : w ≤ src.length
  · rw [if_pos h, if_pos h]
    cases o with
    | leastFirst => rfl
    | mostFirst => exact congrArg some ((joined_eq 0 _).trans (BitVec.shiftLeft_zero _))
  · rw [if_neg h, if_neg h]
    rfl

theorem word16?_eq (o : ByteOrder) (src : Bytes) :
    word16? o src = (take? 2 src).map fun (n, _) => .ofNat n := by
  rw [word16?, word?_eq, Option.map_map]
  rfl

theorem word32?_eq (o : ByteOrder) (src : Bytes) :
    word32? o src = (take? 4 src).map fun (n, _) => .ofNat n := by
  rw [word32?, word?_eq, Option.map_map]
  rfl

/-- Two halves are joined into a word by shifting the upper one behind the lower one. -/
theorem join_halves {low high : Nat} (hlow : low < 2 ^ 32) (hhigh : high < 2 ^ 32) :
    (UInt32.ofNat high).toUInt64 <<< 32 ||| (UInt32.ofNat low).toUInt64 =
      UInt64.ofNat (low + 2 ^ 32 * high) := by
  have hsum : low + 2 ^ 32 * high < 2 ^ 64 := by omega
  have hshift : high <<< 32 % 2 ^ 64 = high <<< 32 := by
    rw [Nat.shiftLeft_eq]
    exact Nat.mod_eq_of_lt (by omega)
  apply UInt64.toNat_inj.1
  rw [UInt64.toNat_or, UInt64.toNat_shiftLeft, UInt32.toNat_toUInt64, UInt32.toNat_toUInt64,
    UInt32.toNat_ofNat_of_lt' hlow, UInt32.toNat_ofNat_of_lt' hhigh,
    UInt64.toNat_ofNat_of_lt' hsum, Nat.or_comm, ← Word.or_shiftLeft_eq_add hlow]
  exact congrArg (low ||| ·) hshift

theorem word64?_eq (o : ByteOrder) (src : Bytes) :
    word64? o src = (take? 8 src).map fun (n, _) => .ofNat n := by
  cases o with
  | leastFirst =>
      rw [word64?, word?_eq, Option.map_map]
      rfl
  | mostFirst =>
      rw [word64?, word32?_eq, word32?_eq]
      rcases Nat.lt_or_ge src.length 8 with h | h
      · have hhigh : (src.drop 4).length < 4 := by
          rw [List.length_drop]
          omega
        rw [take?_of_length_lt h, take?_of_length_lt hhigh]
        cases take? 4 src <;> rfl
      · have hlow : 4 ≤ src.length := Nat.le_trans (by decide) h
        have hhigh : 4 ≤ (src.drop 4).length := by
          rw [List.length_drop]
          omega
        have hsplit : ofBytes (src.take 8) = _ := ofBytes_take_add hlow 4
        rw [take?, if_pos hlow, take?, if_pos hhigh, take?, if_pos h, hsplit]
        exact congrArg some (join_halves (ofBytes_take_lt 4 src) (ofBytes_take_lt 4 (src.drop 4)))

/-! ### Codes of words -/

/-- What is asked of the code of the words of a kind of field, which are read by `decode?` and
written as the field of a word, in `w` bytes. -/
structure IsWordCode {Word : Type} (k : Field.Kind) (w : Nat) (toNat : Word → Nat)
    (decode? : Bytes → Option Word) (field : Word → Field) : Prop where
  /-- Bytes cannot be read just if they are too few. -/
  short (src : Bytes) : decode? src = none ↔ src.length < w
  /-- A word is the sum of the first bytes, each times a power of 256. -/
  value {src : Bytes} {v : Word} : decode? src = some v →
    toNat v = ∑ i ∈ Finset.range w, (src.getD i 0).toNat * 256 ^ i
  /-- Writing a word that has been read gives the bytes back that it has been read from. -/
  rewritten {src dst : Bytes} {v : Word} : decode? src = some v → w ≤ dst.length →
    Field.write? dst (field v) = some (src.take w ++ dst.drop w, w)
  /-- Every word is appended as its code, whatever a buffer holds. -/
  appended (v : Word) (buffer : Bytes) :
    Field.put? buffer (field v) = some (buffer ++ (field v).encode)
  /-- Every word is written, if there is room, over the first bytes of a destination. -/
  written (v : Word) {dst : Bytes} : w ≤ dst.length →
    Field.write? dst (field v) = some ((field v).encode ++ dst.drop w, w)
  /-- Every word is read back from its code, whatever is behind it. -/
  readBack (v : Word) (t : Bytes) : decode? ((field v).encode ++ t) = some v
  /-- A word that is read is the field that is taken from the front of the bytes. -/
  taken (src : Bytes) : Field.take? k src = (decode? src).map fun v => (field v, src.drop w)

/-- The words of a kind of field are the numbers that have `w` bytes. -/
structure AreNumbers {Word : Type} (k : Field.Kind) (w : Nat) (toNat : Word → Nat)
    (ofNat : Nat → Word) (decode? : Bytes → Option Word) (field : Word → Field) : Prop where
  toNat_lt (v : Word) : toNat v < 256 ^ w
  toNat_ofNat {n : Nat} : n < 256 ^ w → toNat (ofNat n) = n
  ofNat_toNat (v : Word) : ofNat (toNat v) = v
  decode?_eq (src : Bytes) : decode? src = (Fixed.take? w src).map fun (n, _) => ofNat n
  take?_eq (src : Bytes) : Field.take? k src =
    (Fixed.take? w src).map fun (n, rest) => (field (ofNat n), rest)
  encode_eq (v : Word) : (field v).encode = toBytes w (toNat v)
  fits (v : Word) : (field v).Fits

namespace AreNumbers

variable {Word : Type} {k : Field.Kind} {w : Nat} {toNat : Word → Nat} {ofNat : Nat → Word}
  {decode? : Bytes → Option Word} {field : Word → Field}
  (h : AreNumbers k w toNat ofNat decode? field)

include h

theorem decode?_of_le {src : Bytes} (hsrc : w ≤ src.length) :
    decode? src = some (ofNat (ofBytes (src.take w))) := by
  rw [h.decode?_eq, Fixed.take?, if_pos hsrc]
  rfl

theorem decode?_of_lt {src : Bytes} (hsrc : src.length < w) : decode? src = none := by
  rw [h.decode?_eq, take?_of_length_lt hsrc]
  rfl

theorem decode?_eq_none_iff (src : Bytes) : decode? src = none ↔ src.length < w := by
  refine ⟨fun hnone => Nat.not_le.1 fun hle => ?_, h.decode?_of_lt⟩
  rw [h.decode?_of_le hle] at hnone
  cases hnone

theorem toNat_of_decode? {src : Bytes} {v : Word} (hv : decode? src = some v) :
    w ≤ src.length ∧ toNat v = ofBytes (src.take w) := by
  rcases Nat.lt_or_ge src.length w with hlt | hle
  · rw [h.decode?_of_lt hlt] at hv
    cases hv
  · rw [h.decode?_of_le hle] at hv
    cases hv
    exact ⟨hle, h.toNat_ofNat (ofBytes_take_lt w src)⟩

/-- The code of a word that has been read is what it has been read from. -/
theorem encode_of_decode? {src : Bytes} {v : Word} (hv : decode? src = some v) :
    (field v).encode = src.take w := by
  obtain ⟨hle, hvalue⟩ := h.toNat_of_decode? hv
  have hback := toBytes_ofBytes (src.take w)
  rwa [List.length_take, Nat.min_eq_left hle, ← hvalue, ← h.encode_eq] at hback

theorem write?_of_le (v : Word) {dst : Bytes} (hdst : w ≤ dst.length) :
    Field.write? dst (field v) = some ((field v).encode ++ dst.drop w, w) := by
  have hlength : (field v).encode.length = w := by rw [h.encode_eq, length_toBytes]
  have hroom : (field v).encode.length ≤ dst.length := by rwa [hlength]
  rw [Field.write?_eq (h.fits v), Bytes.copy?_zero_of_le hroom, hlength]
  rfl

theorem decode?_encode_append (v : Word) (t : Bytes) :
    decode? ((field v).encode ++ t) = some v := by
  rw [h.decode?_eq, h.encode_eq, take?_toBytes_append_of_lt (h.toNat_lt v)]
  exact congrArg some (h.ofNat_toNat v)

theorem take?_eq_map_decode? (src : Bytes) :
    Field.take? k src = (decode? src).map fun v => (field v, src.drop w) := by
  rw [h.take?_eq, h.decode?_eq, Fixed.take?]
  split <;> rfl

/-- **Numbers have the code of a word.** -/
theorem isWordCode : IsWordCode k w toNat decode? field where
  short := h.decode?_eq_none_iff
  value hv := by
    obtain ⟨hle, hvalue⟩ := h.toNat_of_decode? hv
    rw [hvalue, ofBytes_take_eq_sum hle]
  rewritten hv hdst := by rw [h.write?_of_le _ hdst, h.encode_of_decode? hv]
  appended v buffer := Field.put?_eq (h.fits v) buffer
  written := h.write?_of_le
  readBack := h.decode?_encode_append
  taken := h.take?_eq_map_decode?

end AreNumbers

theorem areNumbers_fixed16 (o : ByteOrder) :
    AreNumbers .fixed16 2 UInt16.toNat UInt16.ofNat (word16? o) .fixed16 where
  toNat_lt := UInt16.toNat_lt
  toNat_ofNat := UInt16.toNat_ofNat_of_lt'
  ofNat_toNat _ := UInt16.ofNat_toNat
  decode?_eq := word16?_eq o
  take?_eq _ := rfl
  encode_eq _ := rfl
  fits _ := trivial

theorem areNumbers_fixed32 (o : ByteOrder) :
    AreNumbers .fixed32 4 UInt32.toNat UInt32.ofNat (word32? o) .fixed32 where
  toNat_lt := UInt32.toNat_lt
  toNat_ofNat := UInt32.toNat_ofNat_of_lt'
  ofNat_toNat _ := UInt32.ofNat_toNat
  decode?_eq := word32?_eq o
  take?_eq _ := rfl
  encode_eq _ := rfl
  fits _ := trivial

theorem areNumbers_fixed64 (o : ByteOrder) :
    AreNumbers .fixed64 8 UInt64.toNat UInt64.ofNat (word64? o) .fixed64 where
  toNat_lt := UInt64.toNat_lt
  toNat_ofNat := UInt64.toNat_ofNat_of_lt'
  ofNat_toNat _ := UInt64.ofNat_toNat
  decode?_eq := word64?_eq o
  take?_eq _ := rfl
  encode_eq _ := rfl
  fits _ := trivial

/-! ### Halves -/

/-- A word of 64 bits is read from the words of 32 bits that stand for its halves. -/
theorem exists_halves (o : ByteOrder) {src : Bytes} (h : 8 ≤ src.length) :
    ∃ v low high, word64? o src = some v ∧ word32? o src = some low ∧
      word32? o (src.drop 4) = some high ∧ v.toNat = low.toNat + 2 ^ 32 * high.toNat := by
  have hlow : 4 ≤ src.length := Nat.le_trans (by decide) h
  have hhigh : 4 ≤ (src.drop 4).length := by
    rw [List.length_drop]
    omega
  have hword := (areNumbers_fixed64 o).decode?_of_le h
  have hlower := (areNumbers_fixed32 o).decode?_of_le hlow
  have hupper := (areNumbers_fixed32 o).decode?_of_le hhigh
  refine ⟨_, _, _, hword, hlower, hupper, ?_⟩
  rw [((areNumbers_fixed64 o).toNat_of_decode? hword).2,
    ((areNumbers_fixed32 o).toNat_of_decode? hlower).2,
    ((areNumbers_fixed32 o).toNat_of_decode? hupper).2]
  exact ofBytes_take_add hlow 4

/-- The lower half of a word of 64 bits. -/
def lowerHalf (v : UInt64) : UInt32 := .ofNat (v.toNat % 2 ^ 32)

/-- The upper half of a word of 64 bits. -/
def upperHalf (v : UInt64) : UInt32 := .ofNat (v.toNat / 2 ^ 32)

/-- The code of a word of 64 bits is the code of its lower half and then that of its upper half. -/
theorem encode_fixed64 (v : UInt64) :
    Field.encode (.fixed64 v) =
      Field.encode (.fixed32 (lowerHalf v)) ++ Field.encode (.fixed32 (upperHalf v)) := by
  have hv := v.toNat_lt
  have hlower : (lowerHalf v).toNat = v.toNat % 256 ^ 4 :=
    UInt32.toNat_ofNat_of_lt' (Nat.mod_lt _ (by decide))
  have hupper : (upperHalf v).toNat = v.toNat / 256 ^ 4 :=
    UInt32.toNat_ofNat_of_lt' (Nat.div_lt_of_lt_mul hv)
  rw [Field.encode, Field.encode, Field.encode, hlower, hupper]
  exact toBytes_add 4 4 v.toNat

/-- A word of 64 bits is appended by appending its lower half and then its upper half. -/
theorem put?_halves (buffer : Bytes) (v : UInt64) :
    ((Field.put? buffer (.fixed32 (lowerHalf v))).bind fun out =>
      Field.put? out (.fixed32 (upperHalf v))) =
        some (buffer ++ Field.encode (.fixed64 v)) := by
  have hlower : (Field.fixed32 (lowerHalf v)).Fits := trivial
  have hupper : (Field.fixed32 (upperHalf v)).Fits := trivial
  rw [Field.put?_eq hlower, Option.bind_some, Field.put?_eq hupper, Field.put, Field.put,
    encode_fixed64, List.append_assoc]

/-- **The codes of words are bijections that nest.** In each width, and in whichever order a machine
keeps the bytes of its words, just byte strings that are too short cannot be read; a word is the sum
of its bytes, each times a power of 256, whatever is behind them; it is written as the bytes that it
has been read from, and read as the word that has been written. A word of 64 bits is read from its
halves, the lower one first, and what is appended for it is what is appended for them one after the
other. -/
theorem word_codes_nest (o : ByteOrder) :
    IsWordCode .fixed16 2 UInt16.toNat (word16? o) .fixed16 ∧
      IsWordCode .fixed32 4 UInt32.toNat (word32? o) .fixed32 ∧
      IsWordCode .fixed64 8 UInt64.toNat (word64? o) .fixed64 ∧
      (∀ src : Bytes, 8 ≤ src.length →
        ∃ v low high, word64? o src = some v ∧ word32? o src = some low ∧
          word32? o (src.drop 4) = some high ∧ v.toNat = low.toNat + 2 ^ 32 * high.toNat) ∧
      ∀ (buffer : Bytes) (v : UInt64),
        Field.put? buffer (.fixed64 v) = some (buffer ++ Field.encode (.fixed64 v)) ∧
          ((Field.put? buffer (.fixed32 (lowerHalf v))).bind fun out =>
            Field.put? out (.fixed32 (upperHalf v))) =
              some (buffer ++ Field.encode (.fixed64 v)) :=
  ⟨(areNumbers_fixed16 o).isWordCode, (areNumbers_fixed32 o).isWordCode,
    (areNumbers_fixed64 o).isWordCode, fun _ h => exists_halves o h,
    fun buffer v => ⟨(areNumbers_fixed64 o).isWordCode.appended v buffer, put?_halves buffer v⟩⟩

/-- Bytes from `80` on stand in the highest places of both halves, and one is behind the word. What
is appended for the word does not come before what the buffer holds. -/
theorem word_codes_nest_high_bytes :
    ∃ src : Bytes, src = [0x01, 0x80, 0xff, 0xff, 0xfe, 0x00, 0x00, 0x80, 0x55] ∧
      8 ≤ src.length ∧ ∃ low high, word32? .mostFirst src = some low ∧
        word32? .mostFirst (src.drop 4) = some high ∧
        word64? .mostFirst src = some 0x800000feffff8001 ∧
        0x800000feffff8001 = low.toNat + 2 ^ 32 * high.toNat ∧
        Field.put? [0xaa] (.fixed64 0x800000feffff8001) =
          some [0xaa, 0x01, 0x80, 0xff, 0xff, 0xfe, 0x00, 0x00, 0x80] ∧
        ((Field.put? [0xaa] (.fixed32 (lowerHalf 0x800000feffff8001))).bind fun out =>
          Field.put? out (.fixed32 (upperHalf 0x800000feffff8001))) =
            some [0xaa, 0x01, 0x80, 0xff, 0xff, 0xfe, 0x00, 0x00, 0x80] := by
  have hlength : 8 ≤ [0x01, 0x80, 0xff, 0xff, 0xfe, 0x00, 0x00, 0x80, (0x55 : UInt8)].length := by
    decide
  obtain ⟨-, -, -, hhalves, hput⟩ := word_codes_nest .mostFirst
  obtain ⟨v, low, high, hword, hlow, hhigh, hsum⟩ := hhalves _ hlength
  have hread : word64? .mostFirst [0x01, 0x80, 0xff, 0xff, 0xfe, 0x00, 0x00, 0x80, 0x55] =
      some 0x800000feffff8001 := by decide
  have hcode : Field.encode (.fixed64 0x800000feffff8001) =
      [0x01, 0x80, 0xff, 0xff, 0xfe, 0x00, 0x00, 0x80] := by decide
  obtain ⟨hwhole, hparts⟩ := hput [0xaa] 0x800000feffff8001
  rw [hcode] at hwhole hparts
  cases Option.some.inj (hword.symm.trans hread)
  exact ⟨_, rfl, hlength, low, high, hlow, hhigh, hread, hsum, hwhole, hparts⟩

end RecordLog.Fixed
