import Mathlib.Algebra.BigOperators.Ring.Finset
import RecordLog.Proofs.Coding.Words

/-!
# Which byte strings begin with a code

A byte string begins with a code if one of its first few bytes is below `80`; the code ends at the
first of these. Its number is a sum: each byte gives the seven bits of its group, and each group
weighs `80` times as much as the one in front of it. A word holds the remainder of that sum. Nothing
behind the code matters. Words of both widths are read by the same grammar, but for how many bytes
a code may have, so that the narrow word is the low half of the wide one whenever both can be read.

## Main definitions

* `RecordLog.Varint.IsCode`, when the first `n` bytes are a code.
* `RecordLog.Varint.value`, the sum of the groups of the first `n` bytes.

## Main results

* `RecordLog.Varint.decode?_eq_some_iff` and `RecordLog.Varint.decode?_eq_none_iff`.
* `RecordLog.Varint.decode64?_accepts`: what is read as a word of 64 bits.
* `RecordLog.Varint.decode32?_narrows`: words of 32 bits are read as those of 64 bits.
-/

namespace RecordLog.Varint

/-- The first `n` bytes of a byte string are a code of at most `groups` bytes: the last of them is
below `80` and no other is. -/
structure IsCode (groups : Nat) (src : Bytes) (n : Nat) : Prop where
  pos : 1 ≤ n
  le : n ≤ min groups src.length
  continues : ∀ i < n - 1, 0x80 ≤ src.getD i 0
  ends : src.getD (n - 1) 0 < 0x80

/-- The number that the first `n` bytes of a byte string are the groups of. -/
def value (src : Bytes) (n : Nat) : Nat :=
  ∑ i ∈ Finset.range n, (src.getD i 0 &&& 0x7f).toNat * 2 ^ (7 * i)

variable {groups m n : Nat} {b : UInt8} {r src : Bytes}

/-! ### The grammar -/

theorem not_isCode_nil : ¬ IsCode groups [] n := by
  intro h
  have hpos := h.pos
  have hle := h.le
  rw [List.length_nil] at hle
  omega

theorem not_isCode_zero : ¬ IsCode 0 src n := by
  intro h
  have hpos := h.pos
  have hle := h.le
  omega

theorem isCode_last_iff (hb : b < 0x80) : IsCode (groups + 1) (b :: r) n ↔ n = 1 := by
  constructor
  · intro h
    have hpos := h.pos
    by_contra hne
    exact absurd hb (UInt8.not_lt.2 (h.continues 0 (by omega)))
  · rintro rfl
    exact ⟨Nat.le_refl 1, by rw [List.length_cons]; omega, by simp, hb⟩

theorem isCode_continue_iff (hb : ¬ b < 0x80) :
    IsCode (groups + 1) (b :: r) (n + 1) ↔ IsCode groups r n := by
  constructor
  · intro h
    have hpos : n ≠ 0 := by
      rintro rfl
      exact hb h.ends
    have hle := h.le
    have hends := h.ends
    rw [List.length_cons] at hle
    refine ⟨by omega, by omega, fun i hi => h.continues (i + 1) (by omega), ?_⟩
    rwa [show n + 1 - 1 = n - 1 + 1 by omega, List.getD_cons_succ] at hends
  · intro h
    have hpos := h.pos
    have hle := h.le
    have hends := h.ends
    refine ⟨by omega, by rw [List.length_cons]; omega, fun i hi => ?_, ?_⟩
    · cases i with
      | zero => exact UInt8.not_lt.1 hb
      | succ i => exact h.continues i (by omega)
    · rwa [show n + 1 - 1 = n - 1 + 1 by omega, List.getD_cons_succ]

/-- A code in fewer groups is a code in more, which happens to be short. -/
theorem isCode_iff_of_le {fewer : Nat} (hle : fewer ≤ groups) :
    IsCode fewer src n ↔ IsCode groups src n ∧ n ≤ fewer := by
  constructor
  · intro h
    have := h.le
    exact ⟨⟨h.pos, by omega, h.continues, h.ends⟩, by omega⟩
  · rintro ⟨h, hn⟩
    have := h.le
    exact ⟨h.pos, by omega, h.continues, h.ends⟩

/-! ### Numbers -/

/-- The groups behind the first weigh `80` times as much as they would in front. -/
theorem value_cons (b : UInt8) (r : Bytes) (n : Nat) :
    value (b :: r) (n + 1) = b.toNat % 0x80 + 0x80 * value r n := by
  have hplace : ∀ i, 2 ^ (7 * (i + 1)) = 0x80 * 2 ^ (7 * i) := fun i => by
    rw [Nat.mul_succ, Nat.pow_add, Nat.mul_comm]
  rw [value, Finset.sum_range_succ', value, Finset.mul_sum, Nat.add_comm]
  simp only [List.getD_cons_succ, List.getD_cons_zero, toNat_and_mask, hplace, Nat.mul_zero,
    Nat.pow_zero, Nat.mul_one, Nat.mul_left_comm]

theorem value_one (b : UInt8) (r : Bytes) : value (b :: r) 1 = b.toNat % 0x80 := by
  rw [value_cons, value, Finset.range_zero, Finset.sum_empty, Nat.mul_zero, Nat.add_zero]

/-- **A number is read just from the codes**, and it is the sum of their groups. -/
theorem decode?_eq_some_iff :
    decode? groups src = some (m, n) ↔ IsCode groups src n ∧ m = value src n := by
  induction groups generalizing src m n with
  | zero => simp [decode?, not_isCode_zero]
  | succ g ih =>
      cases src with
      | nil => simp [decode?, not_isCode_nil]
      | cons b r =>
          by_cases hb : b < 0x80
          · have hlow : b.toNat % 0x80 = b.toNat := Nat.mod_eq_of_lt hb
            rw [decode?_last hb, isCode_last_iff hb, Option.some.injEq, Prod.mk.injEq]
            constructor
            · rintro ⟨rfl, rfl⟩
              exact ⟨rfl, by rw [value_one, hlow]⟩
            · rintro ⟨rfl, rfl⟩
              exact ⟨by rw [value_one, hlow], rfl⟩
          · rw [decode?_continue hb, Option.map_eq_some_iff]
            constructor
            · rintro ⟨⟨m', k⟩, hread, heq⟩
              cases heq
              obtain ⟨hcode, rfl⟩ := ih.1 hread
              exact ⟨(isCode_continue_iff hb).2 hcode, (value_cons b r k).symm⟩
            · rintro ⟨hcode, rfl⟩
              obtain ⟨k, rfl⟩ := Nat.exists_eq_succ_of_ne_zero (Nat.ne_of_gt hcode.pos)
              exact ⟨_, ih.2 ⟨(isCode_continue_iff hb).1 hcode, rfl⟩, by rw [value_cons]⟩

/-- **Nothing is read just if no byte ends a code** among the first few. -/
theorem decode?_eq_none_iff : decode? groups src = none ↔ ∀ b ∈ src.take groups, 0x80 ≤ b := by
  induction groups generalizing src with
  | zero => simp [decode?]
  | succ g ih =>
      cases src with
      | nil => simp [decode?]
      | cons b r =>
          rw [List.take_succ_cons, List.forall_mem_cons, ← ih]
          by_cases hb : b < 0x80
          · simp [decode?_last hb, hb]
          · simp [decode?_continue hb, UInt8.not_lt.1 hb]

/-- What stands behind a code does not matter. -/
theorem decode?_take_append (h : decode? groups src = some (m, n)) (t : Bytes) :
    decode? groups (src.take n ++ t) = some (m, n) := by
  induction groups generalizing src m n with
  | zero => simp [decode?] at h
  | succ g ih =>
      cases src with
      | nil => simp [decode?] at h
      | cons b r =>
          by_cases hb : b < 0x80
          · rw [decode?_last hb] at h
            cases h
            exact decode?_last hb g t
          · rw [decode?_continue hb, Option.map_eq_some_iff] at h
            obtain ⟨⟨m', k⟩, hread, heq⟩ := h
            cases heq
            rw [List.take_succ_cons, List.cons_append, decode?_continue hb, ih hread]
            rfl

/-- In fewer groups the same is read, as long as that is not too long. -/
theorem decode?_of_le {fewer : Nat} (hle : fewer ≤ groups) (src : Bytes) :
    decode? fewer src = (decode? groups src).filter fun (_, n) => n ≤ fewer := by
  ext ⟨m, n⟩
  rw [Option.filter_eq_some_iff, decode?_eq_some_iff, decode?_eq_some_iff, isCode_iff_of_le hle,
    decide_eq_true_iff, and_right_comm]

theorem decode?_bounds (h : decode? groups src = some (m, n)) : 0 < n ∧ n ≤ src.length := by
  have hcode := (decode?_eq_some_iff.1 h).1
  have hle := hcode.le
  exact ⟨hcode.pos, by omega⟩

/-! ### Words -/

theorem decode64?_bounds {v : UInt64} (h : decode64? src = some (v, n)) :
    0 < n ∧ n ≤ src.length := by
  obtain ⟨m, hread, -⟩ := exists_decode?_of_decode64? h
  exact decode?_bounds hread

theorem decode32?_bounds {v : UInt32} (h : decode32? src = some (v, n)) :
    0 < n ∧ n ≤ src.length := by
  obtain ⟨m, hread, -⟩ := exists_decode?_of_decode32? h
  exact decode?_bounds hread

/-- **What is read as a word of 64 bits.** The first ten bytes hold a code, and the word is the
remainder of its number; if there is none, since all bytes or the first ten of them say that
another one follows, nothing is read. What stands behind a code does not matter. -/
theorem decode64?_accepts (src : Bytes) :
    (∀ v n, decode64? src = some (v, n) ↔
        IsCode maxSize64 src n ∧ v.toNat = value src n % 2 ^ 64) ∧
      (decode64? src = none ↔ ∀ b ∈ src.take maxSize64, 0x80 ≤ b) ∧
      ∀ v n, decode64? src = some (v, n) → ∀ t, decode64? (src.take n ++ t) = some (v, n) := by
  refine ⟨fun v n => ?_, ?_, fun v n h t => ?_⟩
  · constructor
    · intro h
      obtain ⟨m, hread, hv⟩ := exists_decode?_of_decode64? h
      obtain ⟨hcode, rfl⟩ := decode?_eq_some_iff.1 hread
      exact ⟨hcode, hv⟩
    · rintro ⟨hcode, hv⟩
      have hread := decode?_eq_some_iff.2 ⟨hcode, rfl⟩
      have hword : UInt64.ofNat (value src n) = v := by
        rw [← UInt64.toNat_inj, UInt64.toNat_ofNat', hv]
      rw [decode64?_eq, hread, ← hword]
      rfl
  · rw [decode64?_eq, Option.map_eq_none_iff, decode?_eq_none_iff]
  · rw [decode64?_eq, Option.map_eq_some_iff] at h ⊢
    obtain ⟨r, hread, heq⟩ := h
    cases heq
    exact ⟨r, decode?_take_append hread t, rfl⟩

/-- Bits of the tenth group are dropped, and another byte behind it does not matter. -/
theorem decode64?_accepts_overflowing :
    ∃ src, src = [0xff, 0xff, 0xff, 0xff, 0xff, 0xff, 0xff, 0xff, 0xff, 0x7f, 0x80] ∧
      decode64? src = some (0xffffffffffffffff, 10) ∧ IsCode maxSize64 src 10 ∧
      (0xffffffffffffffff : UInt64).toNat = value src 10 % 2 ^ 64 ∧
      decode64? (src.take 10 ++ [0x01, 0x02]) = some (0xffffffffffffffff, 10) := by
  have hread : decode64? [0xff, 0xff, 0xff, 0xff, 0xff, 0xff, 0xff, 0xff, 0xff, 0x7f, 0x80] =
      some (0xffffffffffffffff, 10) := by decide
  obtain ⟨haccepts, -, hlocal⟩ := decode64?_accepts
    [0xff, 0xff, 0xff, 0xff, 0xff, 0xff, 0xff, 0xff, 0xff, 0x7f, 0x80]
  obtain ⟨hcode, hvalue⟩ := (haccepts _ _).1 hread
  exact ⟨_, rfl, hread, hcode, hvalue, hlocal _ _ hread _⟩

/-- **Words of 32 bits are read as those of 64 bits.** Where a word of 64 bits is read from no more
than five bytes, its low half is read as a word of 32 bits, and from the same bytes; elsewhere none
is read. So both leave the same bytes. -/
theorem decode32?_narrows (src : Bytes) :
    (decode32? src = (decode64? src).bind fun (v, n) =>
        if n ≤ maxSize32 then some (v.toUInt32, n) else none) ∧
      ∀ a rest, take32? src = some (a, rest) →
        ∃ b, take64? src = some (b, rest) ∧ a = b.toUInt32 := by
  have hnarrow : decode32? src = (decode64? src).bind fun (v, n) =>
      if n ≤ maxSize32 then some (v.toUInt32, n) else none := by
    have hle : maxSize32 ≤ maxSize64 := by decide
    rw [decode32?_eq, decode64?_eq, decode?_of_le hle]
    cases decode? maxSize64 src with
    | none => rfl
    | some r =>
        obtain ⟨m, n⟩ := r
        by_cases hn : n ≤ maxSize32 <;> simp [Option.filter, hn]
  refine ⟨hnarrow, fun a rest h => ?_⟩
  obtain ⟨⟨a', n⟩, hread, heq⟩ := Option.map_eq_some_iff.1 h
  cases heq
  rw [hnarrow, Option.bind_eq_some_iff] at hread
  obtain ⟨⟨b, k⟩, hwide, hbound⟩ := hread
  rw [Option.ite_none_right_eq_some] at hbound
  obtain ⟨-, heq⟩ := hbound
  cases heq
  exact ⟨b, by rw [take64?, hwide]; rfl, rfl⟩

/-- Bits of the fifth group that a word of 32 bits drops are kept in one of 64 bits. -/
theorem decode32?_narrows_overflowing :
    ∃ src, src = [0xff, 0xff, 0xff, 0xff, 0x7f, 0x80] ∧
      take32? src = some (0xffffffff, [0x80]) ∧
      ∃ b, take64? src = some (b, [0x80]) ∧ 0xffffffff = b.toUInt32 := by
  have hread : take32? [0xff, 0xff, 0xff, 0xff, 0x7f, 0x80] = some (0xffffffff, [0x80]) := by
    decide
  exact ⟨_, rfl, hread, (decode32?_narrows _).2 _ _ hread⟩

end RecordLog.Varint
