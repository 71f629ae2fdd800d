/-!
# Byte strings

A byte string is a list of bytes. Everything stored, coded or named by this library is one: file
contents, encoded fields, status messages and path names.

## Main definitions

* `RecordLog.Bytes`.
* `RecordLog.Bytes.ofAscii`, the bytes of a text of ASCII characters.
* `RecordLog.Bytes.untilNul`, the part of a byte string before its first zero byte.
* `RecordLog.Bytes.set?`, `RecordLog.Bytes.copy?` and `RecordLog.Bytes.front?`, which reach for
  bytes that may not be there.
-/

namespace RecordLog

/-- Byte strings. -/
abbrev Bytes := List UInt8

namespace Bytes

/-- The bytes of a text of ASCII characters, one for each character. -/
def ofAscii (s : String) : Bytes := s.toList.map fun c => UInt8.ofNat c.toNat

/-- The part of a byte string before its first zero byte, all of it if there is none. -/
def untilNul (b : Bytes) : Bytes := b.takeWhile (· ≠ 0)

theorem zero_notMem_untilNul (b : Bytes) : 0 ∉ b.untilNul := by
  induction b with
  | nil => simp [untilNul]
  | cons a b ih =>
      by_cases ha : a = 0
      · simp [untilNul, ha]
      · simpa [untilNul, ha, eq_comm] using ih

theorem untilNul_append_zero (b : Bytes) (h : 0 ∉ b) (t : Bytes) :
    untilNul (b ++ 0 :: t) = b := by
  induction b with
  | nil => rfl
  | cons a b ih =>
      have ha : a ≠ 0 := fun e => h (by simp [e])
      have hb : 0 ∉ b := fun e => h (by simp [e])
      simpa [untilNul, ha] using ih hb

/-! ### Bytes that may not be there -/

/-- Puts a byte in the place of the one at index `i`, if there is one. -/
def set? (dst : Bytes) (i : Nat) (b : UInt8) : Option Bytes :=
  if i < dst.length then some (dst.set i b) else none

/-- Copies bytes over as many from index `i` on, if there are as many. -/
def copy? (dst : Bytes) (i : Nat) (src : Bytes) : Option Bytes :=
  if i + src.length ≤ dst.length then
    some (dst.take i ++ src ++ dst.drop (i + src.length))
  else
    none

/-- The first `n` bytes, if there are as many. -/
def front? (b : Bytes) (n : Nat) : Option Bytes := if n ≤ b.length then some (b.take n) else none

theorem set?_of_le {dst : Bytes} {i : Nat} (h : dst.length ≤ i) (b : UInt8) :
    dst.set? i b = none := if_neg (Nat.not_lt.2 h)

theorem copy?_of_le {dst : Bytes} {i : Nat} {src : Bytes} (h : i + src.length ≤ dst.length) :
    dst.copy? i src = some (dst.take i ++ src ++ dst.drop (i + src.length)) := if_pos h

theorem copy?_of_lt {dst : Bytes} {i : Nat} {src : Bytes} (h : dst.length < i + src.length) :
    dst.copy? i src = none := if_neg (Nat.not_le.2 h)

theorem copy?_zero_of_le {dst src : Bytes} (h : src.length ≤ dst.length) :
    dst.copy? 0 src = some (src ++ dst.drop src.length) := by
  rw [copy?, Nat.zero_add, if_pos h]
  rfl

theorem copy?_zero_eq_none_iff {dst src : Bytes} :
    dst.copy? 0 src = none ↔ dst.length < src.length := by
  rw [copy?, Nat.zero_add]
  split <;> simp <;> omega

theorem front?_append (b t : Bytes) : (b ++ t).front? b.length = some b := by
  rw [front?, if_pos (by simp), List.take_left]

theorem copy?_singleton (dst : Bytes) (i : Nat) (b : UInt8) : dst.copy? i [b] = dst.set? i b := by
  rcases Nat.lt_or_ge i dst.length with h | h
  · have hroom : i + [b].length ≤ dst.length := h
    rw [set?, if_pos h, List.set_eq_take_append_cons_drop, if_pos h, copy?_of_le hroom,
      List.append_assoc]
    rfl
  · have hshort : dst.length < i + [b].length := Nat.lt_succ_of_le h
    rw [set?_of_le h, copy?_of_lt hshort]

/-- Nothing is copied behind the last byte, but not beyond. -/
theorem copy?_nil (dst : Bytes) (i : Nat) :
    dst.copy? i [] = if i ≤ dst.length then some dst else none := by
  simp [copy?]

/-- Bytes are copied one after the other. -/
theorem copy?_cons (dst : Bytes) (i : Nat) (b : UInt8) (src : Bytes) :
    dst.copy? i (b :: src) = (dst.set? i b).bind fun dst => dst.copy? (i + 1) src := by
  have hcount : i + (b :: src).length = i + 1 + src.length := by
    rw [List.length_cons]
    omega
  rcases Nat.lt_or_ge i dst.length with h | h
  · have htake : (dst.set i b).take (i + 1) = dst.take i ++ [b] := by
      rw [List.take_succ_eq_append_getElem (by rwa [List.length_set]),
        List.take_set_of_le (Nat.le_refl i), List.getElem_set_self]
    have hdrop : (dst.set i b).drop (i + 1 + src.length) = dst.drop (i + 1 + src.length) :=
      List.drop_set_of_lt (by omega)
    rw [set?, if_pos h, Option.bind_some, copy?, copy?, hcount, List.length_set, htake, hdrop,
      List.append_assoc _ [b]]
    rfl
  · rw [set?_of_le h, copy?_of_lt (by omega)]
    rfl

/-- Bytes are copied in two pieces, the second behind the first. -/
theorem copy?_append (dst : Bytes) (i : Nat) (a b : Bytes) :
    dst.copy? i (a ++ b) = (dst.copy? i a).bind fun dst => dst.copy? (i + a.length) b := by
  induction a generalizing dst i with
  | nil =>
      rw [List.nil_append, copy?_nil]
      rcases Nat.lt_or_ge dst.length i with h | h
      · rw [copy?_of_lt (by omega), if_neg (Nat.not_le.2 h)]
        rfl
      · rw [if_pos h]
        rfl
  | cons c a ih =>
      have hcount : i + (c :: a).length = i + 1 + a.length := by
        rw [List.length_cons]
        omega
      simp only [List.cons_append, copy?_cons, ih, Option.bind_assoc, hcount]

end Bytes

end RecordLog
