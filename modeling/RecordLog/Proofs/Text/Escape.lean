import Mathlib.Data.Bool.AllAny
import Mathlib.Data.List.Basic
import RecordLog.Text.Escape
import RecordLog.Text.Quoted

/-!
# Bytes are read back from what shows them

What shows a byte string in ASCII can be read from the left: a character other than a backslash is a
byte by itself, and behind a backslash one or three characters tell the byte. So byte strings that
are shown alike are the same. All that is shown is printable ASCII, and stays so when it is quoted;
there quoting does no more than to put a backslash before quotes and backslashes, which can be taken
away again.

## Main definitions

* `RecordLog.Printable.IsAscii`.
* `RecordLog.Escape.read` and `RecordLog.Quoted.read`, the ways back.

## Main results

* `RecordLog.Escape.read_bytes` and `RecordLog.Escape.bytes_injective`.
* `RecordLog.Quoted.eq_of_text_eq`: what is in ASCII can be quoted and still be told apart.
* `RecordLog.Escape.isAscii_of_mem_bytes` and `RecordLog.Quoted.isAscii_of_mem_text`.
-/

namespace RecordLog

/-- A character of printable ASCII, from the space to the tilde. -/
def Printable.IsAscii (c : Char) : Prop := 0x20 ≤ c.toNat ∧ c.toNat ≤ 0x7E

instance (c : Char) : Decidable (Printable.IsAscii c) := inferInstanceAs (Decidable (_ ∧ _))

open Printable (IsAscii)

/-! ### Bytes in ASCII -/

namespace Escape

/-- The value of a lower-case hexadecimal digit. -/
def digit (c : Char) : Nat := if c.toNat < 0x61 then c.toNat - 0x30 else c.toNat - 0x57

/-- The bytes that a text in ASCII shows. -/
def read : Text → Bytes
  | [] => []
  | '\\' :: 't' :: r => 0x09 :: read r
  | '\\' :: 'r' :: r => 0x0D :: read r
  | '\\' :: 'n' :: r => 0x0A :: read r
  | '\\' :: 'x' :: h :: l :: r => UInt8.ofNat (16 * digit h + digit l) :: read r
  | '\\' :: c :: r => UInt8.ofNat c.toNat :: read r
  | c :: r => UInt8.ofNat c.toNat :: read r

theorem read_cons_of_ne {c : Char} (hc : c ≠ '\\') (r : Text) :
    read (c :: r) = UInt8.ofNat c.toNat :: read r := by
  conv_lhs => unfold read
  split <;> simp_all

theorem digit_digitChar {n : Nat} (h : n < 16) : digit (Nat.digitChar n) = n := by
  have hall : ∀ n < 16, digit (Nat.digitChar n) = n := by decide
  exact hall n h

theorem isAscii_digitChar {n : Nat} (h : n < 16) : IsAscii (Nat.digitChar n) := by
  have hall : ∀ n < 16, IsAscii (Nat.digitChar n) := by decide
  exact hall n h

/-- A byte of ASCII is the number of its character. -/
theorem toNat_ofNat_toNat {b : UInt8} (h : b < 0x7F) : (Char.ofNat b.toNat).toNat = b.toNat := by
  have hb : b.toNat < 0x7F := UInt8.lt_iff_toNat_lt.1 h
  rw [Char.ofNat, dif_pos (Or.inl (by omega))]
  rfl

/-- A byte is read from what shows it, whatever comes behind that. -/
theorem read_byte_append (b : UInt8) (r : Text) : read (byte b ++ r) = b :: read r := by
  fun_cases byte b with
  | case1 hb | case2 _ hb | case3 _ _ hb =>
      subst hb
      rfl
  | case4 _ _ _ hb => rcases hb with rfl | rfl | rfl <;> rfl
  | case5 _ _ _ hquote hb =>
      have hchar := toNat_ofNat_toNat hb.2
      have hne : Char.ofNat b.toNat ≠ '\\' := by
        intro heq
        rw [heq] at hchar
        exact hquote (Or.inr (Or.inr (UInt8.toNat_inj.1 hchar.symm)))
      rw [List.singleton_append, read_cons_of_ne hne, hchar, UInt8.ofNat_toNat]
  | case6 =>
      have hb := b.toNat_lt
      have hvalue : 16 * (b.toNat / 16) + b.toNat % 16 = b.toNat := by omega
      show UInt8.ofNat (16 * digit (Nat.digitChar (b.toNat / 16)) +
        digit (Nat.digitChar (b.toNat % 16))) :: read r = b :: read r
      rw [digit_digitChar (by omega), digit_digitChar (by omega), hvalue, UInt8.ofNat_toNat]

/-- **Bytes are read from what shows them.** -/
theorem read_bytes (b : Bytes) : read (bytes b) = b := by
  induction b with
  | nil => rfl
  | cons b r ih => rw [bytes_cons, read_byte_append, ih]

theorem bytes_injective : Function.Injective bytes := Function.LeftInverse.injective read_bytes

theorem isAscii_of_mem_byte {b : UInt8} {c : Char} (hc : c ∈ byte b) : IsAscii c := by
  revert hc
  fun_cases byte b with
  | case1 | case2 | case3 => exact List.all_iff_forall_prop.1 (by decide) c
  | case4 _ _ _ hb =>
      rcases hb with rfl | rfl | rfl <;> exact List.all_iff_forall_prop.1 (by decide) c
  | case5 _ _ _ _ hb =>
      intro hc
      have hchar := toNat_ofNat_toNat hb.2
      rw [UInt8.le_iff_toNat_le, UInt8.lt_iff_toNat_lt] at hb
      rw [List.mem_singleton.1 hc, IsAscii, hchar]
      exact ⟨hb.1, Nat.le_of_lt_succ hb.2⟩
  | case6 =>
      intro hc
      have hb := b.toNat_lt
      simp only [List.mem_cons, List.not_mem_nil, or_false] at hc
      rcases hc with rfl | rfl | rfl | rfl
      · decide
      · decide
      · exact isAscii_digitChar (by omega)
      · exact isAscii_digitChar (by omega)

/-- Bytes are shown in printable ASCII. -/
theorem isAscii_of_mem_bytes {b : Bytes} {c : Char} (hc : c ∈ bytes b) : IsAscii c := by
  obtain ⟨a, -, ha⟩ := List.mem_flatMap.1 hc
  exact isAscii_of_mem_byte ha

end Escape

/-! ### Quoted ASCII -/

namespace Quoted

/-- In ASCII, quotes and backslashes have a backslash before them, and all else is as it is. -/
theorem char_of_isAscii {c : Char} (hc : IsAscii c) :
    char c = if c = '"' ∨ c = '\\' then ['\\', c] else [c] := by
  have hne (d : Char) (hd : d.toNat < 0x20) : c ≠ d := by
    rintro rfl
    exact Nat.not_lt.2 hc.1 hd
  rw [char, if_neg (hne _ (by decide)), if_neg (hne _ (by decide)), if_neg (hne _ (by decide)),
    if_neg (hne _ (by decide)), if_pos (Printable.isPrintable_of_ascii hc.1
      (Nat.lt_succ_of_le hc.2))]

/-- A text without the backslashes that stand before other characters. -/
def read : Text → Text
  | [] => []
  | '\\' :: c :: r => c :: read r
  | c :: r => c :: read r

theorem read_cons_of_ne {c : Char} (hc : c ≠ '\\') (r : Text) : read (c :: r) = c :: read r := by
  conv_lhs => unfold read
  split <;> simp_all

theorem read_flatMap_char {t : Text} (ht : ∀ c ∈ t, IsAscii c) : read (t.flatMap char) = t := by
  induction t with
  | nil => rfl
  | cons c t ih =>
      obtain ⟨hc, ht⟩ := List.forall_mem_cons.1 ht
      rw [List.flatMap_cons, char_of_isAscii hc]
      split_ifs with hquote
      · show c :: read (t.flatMap char) = c :: t
        rw [ih ht]
      · rw [List.singleton_append, read_cons_of_ne (fun h => hquote (Or.inr h)), ih ht]

/-- **Texts in ASCII that are quoted alike are the same.** -/
theorem eq_of_text_eq {s t : Text} (hs : ∀ c ∈ s, IsAscii c) (ht : ∀ c ∈ t, IsAscii c)
    (h : text s = text t) : s = t := by
  have hbody : s.flatMap char = t.flatMap char :=
    List.append_cancel_right (List.tail_eq_of_cons_eq h)
  rw [← read_flatMap_char hs, hbody, read_flatMap_char ht]

theorem isAscii_of_mem_char {c d : Char} (hc : IsAscii c) (hd : d ∈ char c) : IsAscii d := by
  rw [char_of_isAscii hc] at hd
  split_ifs at hd
  · rw [List.mem_cons, List.mem_singleton] at hd
    rcases hd with rfl | rfl
    · decide
    · exact hc
  · rwa [List.mem_singleton.1 hd]

/-- A text in ASCII is quoted in ASCII. -/
theorem isAscii_of_mem_text {t : Text} (ht : ∀ c ∈ t, IsAscii c) {c : Char} (hc : c ∈ text t) :
    IsAscii c := by
  rw [text, List.mem_append, List.mem_cons, List.mem_singleton, List.mem_flatMap] at hc
  rcases hc with (rfl | ⟨d, hd, hc⟩) | rfl
  · decide
  · exact isAscii_of_mem_char (ht d hd) hc
  · decide

end Quoted

end RecordLog
