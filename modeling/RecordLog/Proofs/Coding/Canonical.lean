import Mathlib.Order.Bounds.Defs
import RecordLog.Proofs.Coding.Boundary
import RecordLog.Proofs.Coding.Grammar

/-!
# Shortest codes

A number is written in as few groups as its bits fill. A reader takes longer codes for it as well:
those that are padded with zero groups behind the highest, and those whose last group has bits that
a word has no room for. There are no others. So a code that is read is the one that is written just
if it is not padded and its last group fits in the word.

## Main definitions

* `RecordLog.Varint.IsWrittenShortest`, what it is to write a number in as few groups as can be.
* `RecordLog.Varint.IsCanonical`, a code that is not padded and whose last group fits.

## Main results

* `RecordLog.Varint.isLeast_size`.
* `RecordLog.Varint.encode_eq_iff` and `RecordLog.Varint.encode_mod_eq_iff`: which codes are those
  that are written, of all that are read.
* `RecordLog.Varint.shortest_iff_canonical`.
-/

namespace RecordLog.Varint

variable {groups m n : Nat} {s : Bytes}

/-! ### Groups that a number fills -/

theorem lt_pow_size (n : Nat) : n < 0x80 ^ size n := by
  fun_induction size n with
  | case1 n h => exact h
  | case2 n h ih =>
      rw [Nat.pow_succ]
      omega

/-- **A number has as many groups as its bits need.** -/
theorem isLeast_size (n : Nat) : IsLeast {k | 1 ≤ k ∧ n < 2 ^ (7 * k)} (size n) := by
  have hbits : ∀ k, 2 ^ (7 * k) = 0x80 ^ k := fun k => Nat.pow_mul 2 7 k
  constructor
  · exact ⟨size_pos n, by rw [hbits]; exact lt_pow_size n⟩
  · rintro k ⟨hpos, hlt⟩
    rw [hbits] at hlt
    exact size_le_of_lt hpos hlt

/-- What it is to write a number in as few groups as can be: `code` is copied over the first bytes
of any destination that has `size` bytes, and with fewer bytes there would be too few bits. -/
structure IsWrittenShortest (write : Bytes → Option (Bytes × Nat)) (n : Nat) (code : Bytes)
    (size : Nat) : Prop where
  write_eq : ∀ dst, size ≤ dst.length → write dst = some (code ++ dst.drop size, size)
  length_code : code.length = size
  isLeast : IsLeast {k | 1 ≤ k ∧ n < 2 ^ (7 * k)} size

theorem isWrittenShortest_of_copies {write : Bytes → Option (Bytes × Nat)}
    (h : ∀ dst, write dst = (dst.copy? 0 (encode n)).map fun dst => (dst, size n)) :
    IsWrittenShortest write n (encode n) (size n) := by
  refine ⟨fun dst hdst => ?_, length_encode n, isLeast_size n⟩
  have hroom : (encode n).length ≤ dst.length := by rwa [length_encode]
  rw [h, Bytes.copy?_zero_of_le hroom, length_encode]
  rfl

/-! ### Codes that are read -/

/-- A code that is all there is has one byte, or one that is continued by such a code. -/
theorem whole_cases {b : UInt8} {r : Bytes}
    (h : decode? groups (b :: r) = some (m, (b :: r).length)) :
    (b < 0x80 ∧ r = [] ∧ m = b.toNat) ∨
      (¬ b < 0x80 ∧ r ≠ [] ∧ ∃ g m', decode? g r = some (m', r.length) ∧
        m = b.toNat % 0x80 + 0x80 * m') := by
  cases groups with
  | zero => simp [decode?] at h
  | succ g =>
      by_cases hb : b < 0x80
      · rw [decode?_last hb, Option.some.injEq, Prod.mk.injEq, List.length_cons] at h
        exact Or.inl ⟨hb, List.eq_nil_of_length_eq_zero (by omega), h.1.symm⟩
      · rw [decode?_continue hb, Option.map_eq_some_iff] at h
        obtain ⟨⟨m', k⟩, hread, heq⟩ := h
        cases heq
        have hpos := (decode?_eq_some_iff.1 hread).1.pos
        exact Or.inr ⟨hb, List.length_pos_iff.1 hpos, g, m', hread, rfl⟩

/-- The last group of a code that is all there is bounds its number from both sides. -/
theorem exists_last_of_decode? (h : decode? groups s = some (m, s.length)) :
    ∃ b, s.getLast? = some b ∧ b < 0x80 ∧ b.toNat * 0x80 ^ (s.length - 1) ≤ m ∧
      m < (b.toNat + 1) * 0x80 ^ (s.length - 1) := by
  induction s generalizing groups m with
  | nil => cases groups <;> simp [decode?] at h
  | cons b r ih =>
      obtain ⟨hb, rfl, rfl⟩ | ⟨-, hr, g, m', hread, rfl⟩ := whole_cases h
      · exact ⟨b, rfl, hb, by simp, by simp⟩
      · obtain ⟨last, hlast, hend, hlow, hhigh⟩ := ih hread
        have hgroup := Nat.mod_lt b.toNat (show 0 < 0x80 by decide)
        have hpos := List.length_pos_iff.2 hr
        have hplace : 0x80 ^ ((b :: r).length - 1) = 0x80 ^ (r.length - 1) * 0x80 := by
          rw [← Nat.pow_succ]
          congr 1
          rw [List.length_cons]
          omega
        rw [List.getLast?_cons, hlast, hplace]
        refine ⟨last, rfl, hend, ?_, ?_⟩
        · rw [← Nat.mul_assoc]
          omega
        · rw [← Nat.mul_assoc]
          omega

/-- The number of a code that is all there is has at most seven bits for each byte. -/
theorem lt_pow_length_of_decode? (h : decode? groups s = some (m, s.length)) :
    m < 0x80 ^ s.length := by
  obtain ⟨b, -, hend, -, hhigh⟩ := exists_last_of_decode? h
  have hpos := (decode?_eq_some_iff.1 h).1.pos
  have hb : b.toNat + 1 ≤ 0x80 := hend
  calc m < (b.toNat + 1) * 0x80 ^ (s.length - 1) := hhigh
    _ ≤ 0x80 * 0x80 ^ (s.length - 1) := Nat.mul_le_mul_right _ hb
    _ = 0x80 ^ s.length := by
        rw [Nat.mul_comm, ← Nat.pow_succ]
        congr 1
        omega

/-- A code that is read as a number is not shorter than the one that is written for it, or for a
smaller number. -/
theorem size_le_of_decode? (h : decode? groups s = some (m, s.length)) (hn : n ≤ m) :
    size n ≤ s.length :=
  size_le_of_lt (decode?_eq_some_iff.1 h).1.pos (Nat.lt_of_le_of_lt hn (lt_pow_length_of_decode? h))

/-- A code that does not end in a zero group is not one of zero. -/
theorem pos_of_decode? (h : decode? groups s = some (m, s.length)) (hlast : s.getLast? ≠ some 0) :
    0 < m := by
  obtain ⟨b, hb, -, hlow, -⟩ := exists_last_of_decode? h
  have hne : b ≠ 0 := by
    rintro rfl
    exact hlast hb
  have hpos : 0 < b.toNat * 0x80 ^ (s.length - 1) :=
    Nat.mul_pos (UInt8.pos_iff_ne_zero.2 hne) (Nat.pow_pos (by decide))
  omega

/-- A code that does not end in a zero group is the code of its number. -/
theorem encode_of_decode? (h : decode? groups s = some (m, s.length))
    (hlast : s.length = 1 ∨ s.getLast? ≠ some 0) : encode m = s := by
  induction s generalizing groups m with
  | nil => cases groups <;> simp [decode?] at h
  | cons b r ih =>
      obtain ⟨hb, rfl, rfl⟩ | ⟨hb, hr, g, m', hread, rfl⟩ := whole_cases h
      · have hlt : b.toNat < 0x80 := hb
        rw [encode_of_lt hlt, UInt8.ofNat_toNat]
      · have hlast : r.getLast? ≠ some 0 := by
          rw [List.getLast?_cons_of_ne_nil hr, List.length_cons] at hlast
          have hpos := List.length_pos_iff.2 hr
          exact hlast.resolve_left (by omega)
        have hcode : encode m' = r := ih hread (Or.inr hlast)
        have hrest : 0 < m' := pos_of_decode? hread hlast
        have hge : 0x80 ≤ b.toNat := Nat.le_of_not_lt hb
        have hlt := b.toNat_lt
        have hmarked : 0x80 + (b.toNat % 0x80 + 0x80 * m') % 0x80 = b.toNat := by omega
        have hdiv : (b.toNat % 0x80 + 0x80 * m') / 0x80 = m' := by omega
        rw [encode_of_le (by omega), hmarked, hdiv, hcode, UInt8.ofNat_toNat]

/-- **Of the codes that are read as a number, the one that is written is not padded.** -/
theorem encode_eq_iff (h : decode? groups s = some (m, s.length)) :
    encode m = s ↔ s.length = 1 ∨ s.getLast? ≠ some 0 := by
  refine ⟨fun hcode => ?_, encode_of_decode? h⟩
  by_contra hpadded
  rw [not_or, not_not] at hpadded
  obtain ⟨hlength, hlast⟩ := hpadded
  obtain ⟨b, hb, -, -, hhigh⟩ := exists_last_of_decode? h
  have hpos := (decode?_eq_some_iff.1 h).1.pos
  rw [hlast, Option.some.injEq] at hb
  subst hb
  -- Without the zero group there is room enough for the number.
  have hless : size m ≤ s.length - 1 := size_le_of_lt (by omega) (by simpa using hhigh)
  rw [← length_encode, hcode] at hless
  omega

/-! ### Words -/

/-- A code is not padded with zero groups, and if it has as many groups as can be, then its last one
is no greater than `top`. -/
structure IsCanonical (groups : Nat) (top : UInt8) (s : Bytes) : Prop where
  not_padded : s.length = 1 ∨ s.getLast? ≠ some 0
  fits : s.length < groups ∨ ∃ b ∈ s.getLast?, b ≤ top

instance (groups : Nat) (top : UInt8) (s : Bytes) : Decidable (IsCanonical groups top s) :=
  decidable_of_iff ((s.length = 1 ∨ s.getLast? ≠ some 0) ∧
      (s.length < groups ∨ ∃ b ∈ s.getLast?, b ≤ top))
    ⟨fun ⟨hlast, hfits⟩ => ⟨hlast, hfits⟩, fun h => ⟨h.not_padded, h.fits⟩⟩

variable {w : Nat} {top : UInt8}

/-- The number of a code is one of a word just if the last group fits, where `top` is the greatest
that does. -/
theorem lt_two_pow_iff (hw : 2 ^ w = (top.toNat + 1) * 0x80 ^ (groups - 1))
    (h : decode? groups s = some (m, s.length)) :
    m < 2 ^ w ↔ s.length < groups ∨ ∃ b ∈ s.getLast?, b ≤ top := by
  obtain ⟨b, hlast, -, hlow, hhigh⟩ := exists_last_of_decode? h
  have hcode := (decode?_eq_some_iff.1 h).1
  have hpos := hcode.pos
  have hle := hcode.le
  rcases Nat.lt_or_ge s.length groups with hshort | hlong
  · have hlt : m < 2 ^ w :=
      calc m < 0x80 ^ s.length := lt_pow_length_of_decode? h
        _ ≤ 0x80 ^ (groups - 1) := Nat.pow_le_pow_right (by decide) (by omega)
        _ ≤ 2 ^ w := by
          rw [hw]
          exact Nat.le_mul_of_pos_left _ (Nat.succ_pos _)
    exact ⟨fun _ => Or.inl hshort, fun _ => hlt⟩
  · have hlength : s.length = groups := by omega
    rw [hlength] at hlow hhigh
    constructor
    · intro hlt
      refine Or.inr ⟨b, hlast, ?_⟩
      by_contra hgt
      have hgt : top.toNat + 1 ≤ b.toNat := UInt8.not_le.1 hgt
      have := Nat.mul_le_mul_right (0x80 ^ (groups - 1)) hgt
      omega
    · rintro (hshort | ⟨b', hlast', hfits⟩)
      · omega
      · rw [hlast, Option.mem_some] at hlast'
        subst hlast'
        have hfits : b.toNat + 1 ≤ top.toNat + 1 := Nat.succ_le_succ (UInt8.le_iff_toNat_le.1 hfits)
        have := Nat.mul_le_mul_right (0x80 ^ (groups - 1)) hfits
        omega

/-- **Of the codes that are read as a word, the one that is written is canonical.** -/
theorem encode_mod_eq_iff (hw : 2 ^ w = (top.toNat + 1) * 0x80 ^ (groups - 1))
    (h : decode? groups s = some (m, s.length)) :
    encode (m % 2 ^ w) = s ↔ IsCanonical groups top s := by
  have hfits := lt_two_pow_iff hw h
  constructor
  · intro hcode
    -- What is written is read as itself, so that no bit of the number has been dropped.
    have hm : m = m % 2 ^ w := by
      have hle := (decode?_eq_some_iff.1 h).1.le
      have hsize : size (m % 2 ^ w) ≤ groups := by
        rw [← length_encode, hcode]
        omega
      have hread := decode?_encode_append hsize []
      rw [hcode, List.append_nil, h] at hread
      exact congrArg Prod.fst (Option.some.inj hread)
    have hlt : m < 2 ^ w := by
      rw [hm]
      exact Nat.mod_lt _ (Nat.two_pow_pos w)
    rw [← hm] at hcode
    exact ⟨(encode_eq_iff h).1 hcode, hfits.1 hlt⟩
  · intro hcanonical
    rw [Nat.mod_eq_of_lt (hfits.2 hcanonical.fits)]
    exact encode_of_decode? h hcanonical.not_padded

/-- **Words are written in as few bytes as can be, and a code that is read is the one that is
written just if it is canonical.** -/
theorem shortest_iff_canonical :
    (∀ v : UInt64,
      IsWrittenShortest (write64? · v) v.toNat (encode v.toNat) (size64 v) ∧
        size64 v ≤ maxSize64 ∧ (v.toNat < 2 ^ 32 → size64 v ≤ maxSize32) ∧
        ∀ s, decode64? s = some (v, s.length) →
          size64 v ≤ s.length ∧ (encode v.toNat = s ↔ IsCanonical maxSize64 0x01 s)) ∧
      ∀ v : UInt32,
        IsWrittenShortest (write32? · v) v.toNat (encode v.toNat) (size64 v.toUInt64) ∧
          size64 v.toUInt64 ≤ maxSize32 ∧
          ∀ s, decode32? s = some (v, s.length) →
            size64 v.toUInt64 ≤ s.length ∧ (encode v.toNat = s ↔ IsCanonical maxSize32 0x0f s) := by
  constructor
  · intro v
    rw [size64_eq]
    refine ⟨isWrittenShortest_of_copies (write64?_eq · v), size_le_maxSize64 v, fun hlt => ?_,
      fun s h => ?_⟩
    · exact size_le_of_lt (by decide) (Nat.lt_trans hlt (by decide))
    · obtain ⟨m, hread, hv⟩ := exists_decode?_of_decode64? h
      rw [hv]
      exact ⟨size_le_of_decode? hread (Nat.mod_le _ _), encode_mod_eq_iff (by decide) hread⟩
  · intro v
    rw [size64_eq, UInt32.toNat_toUInt64]
    refine ⟨isWrittenShortest_of_copies (write32?_eq · v), size_le_maxSize32 v, fun s h => ?_⟩
    obtain ⟨m, hread, hv⟩ := exists_decode?_of_decode32? h
    rw [hv]
    exact ⟨size_le_of_decode? hread (Nat.mod_le _ _), encode_mod_eq_iff (by decide) hread⟩

/-- Zero is read from two bytes, too, which are not canonical. -/
theorem shortest_iff_canonical_padded :
    decode64? [0x80, 0x00] = some (0, 2) ∧ size64 0 ≤ 2 ∧
      ¬ IsCanonical maxSize64 0x01 [0x80, 0x00] ∧ encode (0 : UInt64).toNat ≠ [0x80, 0x00] := by
  have hread : decode64? [0x80, 0x00] = some (0, 2) := by decide
  have hpadded : ¬ IsCanonical maxSize64 0x01 [0x80, 0x00] := by decide
  obtain ⟨hsize, hcode⟩ := (shortest_iff_canonical.1 0).2.2.2 _ hread
  exact ⟨hread, hsize, hpadded, mt hcode.1 hpadded⟩

end RecordLog.Varint
