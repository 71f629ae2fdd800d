import Mathlib.Tactic.ByContra
import RecordLog.Decimal.Signed64

/-!
# Digits with a bound

A number that is read digit by digit never gets smaller, so that it is enough to ask after all the
digits whether it has become too large: the first step that leaves the range decides, and none
before it can. This makes the reading of digits without a minus sign the plain value of the digits
with one bound on it. Leading zeros do not count. With a minus sign nothing positive comes out.

## Main results

* `RecordLog.Signed64.foldlM_push?_false`.
* `RecordLog.Signed64.ofText?_eq_some_iff`: which texts stand for a given positive number.
-/

namespace RecordLog.Signed64

variable {negative : Bool} {n k : Int} {c : Char} {ds t : Text}

/-- What is read of more digits is at least what has been read before. -/
theorem le_ofDigitChars (ds : Text) (m : Nat) : m ≤ Nat.ofDigitChars 10 ds m := by
  induction ds generalizing m with
  | nil => exact Nat.le_of_eq Nat.ofDigitChars_nil.symm
  | cons c ds ih =>
      rw [Nat.ofDigitChars_cons]
      have hrest := ih (10 * m + (c.toNat - '0'.toNat))
      omega

/-! ### One digit -/

theorem push?_of_not_isDigit (hc : ¬ c.isDigit) : push? negative n c = none := by
  rw [push?, digit?, if_neg hc]
  cases checked (10 * n) <;> rfl

/-- The first of the two checks refuses nothing that the second one would let pass. -/
theorem push?_false (hn : 0 ≤ n) (hc : c.isDigit) :
    push? false n c = checked (10 * n + (c.toNat - '0'.toNat : Nat)) := by
  rw [push?, digit?, if_pos hc]
  rcases Int.lt_or_le greatest (10 * n) with hten | hten
  · rw [checked_of_lt hten, checked_of_lt (by omega)]
    rfl
  · rw [checked_of_mem (by rw [least]; omega) hten]
    rfl

/-- Digits behind a minus sign lead away from what is positive. -/
theorem nonpos_of_push?_true (hn : n ≤ 0) (h : push? true n c = some k) : k ≤ 0 := by
  obtain ⟨tens, htens, h⟩ := Option.bind_eq_some_iff.1 h
  obtain ⟨d, -, h⟩ := Option.bind_eq_some_iff.1 h
  have hk : tens - d = k := eq_of_checked h
  have htens : 10 * n = tens := eq_of_checked htens
  omega

/-! ### Digits in a row -/

theorem isDigit_of_foldlM (h : ds.foldlM (push? negative) n = some k) : ∀ c ∈ ds, c.isDigit := by
  induction ds generalizing n with
  | nil => exact fun c hc => absurd hc List.not_mem_nil
  | cons c ds ih =>
      rw [List.foldlM_cons] at h
      obtain ⟨m, hm, h⟩ := Option.bind_eq_some_iff.1 h
      refine List.forall_mem_cons.2 ⟨?_, ih h⟩
      by_contra hc
      rw [push?_of_not_isDigit hc] at hm
      cases hm

theorem nonpos_of_foldlM_true (hn : n ≤ 0) (h : ds.foldlM (push? true) n = some k) : k ≤ 0 := by
  induction ds generalizing n with
  | nil =>
      obtain rfl : n = k := Option.some.inj h
      exact hn
  | cons c ds ih =>
      rw [List.foldlM_cons] at h
      obtain ⟨m, hm, h⟩ := Option.bind_eq_some_iff.1 h
      exact ih (nonpos_of_push?_true hn hm) h

/-- **Digits are read as their value, if that is not too large.** -/
theorem foldlM_push?_false (hds : ∀ c ∈ ds, c.isDigit) (m : Nat) (hm : (m : Int) ≤ greatest) :
    ds.foldlM (push? false) (m : Int) = checked (Nat.ofDigitChars 10 ds m : Nat) := by
  induction ds generalizing m with
  | nil =>
      rw [List.foldlM_nil, Nat.ofDigitChars_nil, checked_of_mem (by rw [least]; omega) hm]
      rfl
  | cons c ds ih =>
      obtain ⟨hc, hds⟩ := List.forall_mem_cons.1 hds
      have hstep : push? false (m : Int) c =
          checked ((10 * m + (c.toNat - '0'.toNat) : Nat) : Int) := by
        rw [push?_false (by omega) hc]
        push_cast
        rfl
      rw [List.foldlM_cons, hstep, Nat.ofDigitChars_cons]
      rcases Int.lt_or_le greatest (10 * m + (c.toNat - '0'.toNat) : Nat) with hover | hroom
      · have hmore := le_ofDigitChars ds (10 * m + (c.toNat - '0'.toNat))
        rw [checked_of_lt hover, checked_of_lt (by omega)]
        rfl
      · rw [checked_of_mem (by rw [least]; omega) hroom]
        exact ih hds _ hroom

theorem digits?_eq (ds : Text) (hne : ds ≠ []) :
    digits? negative ds = ds.foldlM (push? negative) 0 := by
  cases ds with
  | nil => exact absurd rfl hne
  | cons c ds => rfl

theorem digits?_false_eq_some_iff :
    digits? false ds = some k ↔ ds ≠ [] ∧ (∀ c ∈ ds, c.isDigit) ∧
      (Nat.ofDigitChars 10 ds 0 : Nat) = k ∧ k ≤ greatest := by
  have hvalue (hds : ∀ c ∈ ds, c.isDigit) :
      ds.foldlM (push? false) 0 = checked (Nat.ofDigitChars 10 ds 0 : Nat) :=
    foldlM_push?_false hds 0 (by decide)
  constructor
  · intro h
    have hne : ds ≠ [] := by
      rintro rfl
      cases h
    rw [digits?_eq ds hne] at h
    have hds := isDigit_of_foldlM h
    rw [hvalue hds] at h
    have hk := eq_of_checked h
    refine ⟨hne, hds, hk, ?_⟩
    by_contra hover
    rw [hk, checked_of_lt (Int.not_le.1 hover)] at h
    cases h
  · rintro ⟨hne, hds, rfl, hk⟩
    rw [digits?_eq ds hne, hvalue hds, checked_of_mem (by rw [least]; omega) hk]

/-! ### Signs -/

theorem ne_of_isDigit (hc : c.isDigit) : c ≠ '-' ∧ c ≠ '+' := by
  constructor <;> (rintro rfl; cases hc)

/-- What has no sign is read as digits. -/
theorem ofText?_of_isDigit (hc : c.isDigit) (ds : Text) :
    ofText? (c :: ds) = digits? false (c :: ds) := by
  obtain ⟨hminus, hplus⟩ := ne_of_isDigit hc
  unfold ofText?
  split
  · rename_i h
    exact absurd (List.cons.inj h).1 hminus
  · rename_i h
    exact absurd (List.cons.inj h).1 hplus
  · rfl

/-- **A text stands for a positive number** if it is digits, after a plus sign or none, with that
number as their value, and the number is not too large. -/
theorem ofText?_eq_some_iff (hk : 0 < k) :
    ofText? t = some k ↔ ∃ sign ds, t = sign ++ ds ∧ (sign = [] ∨ sign = ['+']) ∧ ds ≠ [] ∧
      (∀ c ∈ ds, c.isDigit) ∧ (Nat.ofDigitChars 10 ds 0 : Nat) = k ∧ k ≤ greatest := by
  constructor
  · intro h
    unfold ofText? at h
    split at h
    · rename_i ds
      have hne : ds ≠ [] := by
        rintro rfl
        cases h
      rw [digits?_eq ds hne] at h
      have hneg := nonpos_of_foldlM_true (Int.le_refl 0) h
      omega
    · rename_i ds
      exact ⟨['+'], ds, rfl, Or.inr rfl, digits?_false_eq_some_iff.1 h⟩
    · exact ⟨[], t, rfl, Or.inl rfl, digits?_false_eq_some_iff.1 h⟩
  · rintro ⟨sign, ds, rfl, rfl | rfl, hds⟩
    · cases ds with
      | nil => exact absurd rfl hds.1
      | cons c ds =>
          rw [List.nil_append, ofText?_of_isDigit (hds.2.1 c List.mem_cons_self)]
          exact digits?_false_eq_some_iff.2 hds
    · exact digits?_false_eq_some_iff.2 hds

end RecordLog.Signed64
