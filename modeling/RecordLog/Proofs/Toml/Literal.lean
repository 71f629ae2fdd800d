import Mathlib.Data.Bool.AllAny
import Mathlib.Data.List.Basic
import Mathlib.Data.List.TakeWhile
import RecordLog.Toml.Outline
import RecordLog.Toml.Scalar

/-!
# Integers and truth values in words

Words are told apart by what they look like: truth values by their letters, dates and times by the
marks behind their first digits, numbers to other bases by a letter behind a zero, and fractions by
a point or a letter anywhere. A decimal integer without leading zeros looks like none of the others,
with a minus sign or without, so that it is read as the number that it is written for.

## Main definitions

* `RecordLog.Toml.Literal`, with `Literal.text` and `Literal.value`.

## Main results

* `RecordLog.Toml.decimal?_of_digits`: decimal digits are read as their number.
* `RecordLog.Toml.Literal.word?_text`: a literal is read as its value.
-/

namespace RecordLog.Toml

/-- Integers in decimal digits without leading zeros, with a minus sign or none, and truth values.
Zero may have a sign, too. -/
inductive Literal
  | integer (negative : Bool) (magnitude : Nat)
  | boolean (b : Bool)
  deriving DecidableEq, Repr

namespace Literal

/-- A literal as it is written. -/
def text : Literal → Text
  | integer negative n => (if negative then ['-'] else []) ++ Nat.toDigits 10 n
  | boolean b => booleanText b

/-- What a literal stands for. -/
def value : Literal → Value
  | integer negative n => .integer (withSign negative n)
  | boolean b => .boolean b

/-- Whether a literal, if it is an integer, is a signed number of 128 bits. -/
def IsReadable : Literal → Prop
  | integer negative n => -0x80000000000000000000000000000000 ≤ withSign negative n ∧
      withSign negative n < 0x80000000000000000000000000000000
  | boolean _ => True

/-- Whether a literal, if it is an integer, is a signed number of 64 bits. -/
def IsShort : Literal → Prop
  | integer negative n => -0x8000000000000000 ≤ withSign negative n ∧
      withSign negative n ≤ 0x7fffffffffffffff
  | boolean _ => True

instance (l : Literal) : Decidable l.IsReadable :=
  match l with
  | integer _ _ => inferInstanceAs (Decidable (_ ∧ _))
  | boolean _ => inferInstanceAs (Decidable True)

instance (l : Literal) : Decidable l.IsShort :=
  match l with
  | integer _ _ => inferInstanceAs (Decidable (_ ∧ _))
  | boolean _ => inferInstanceAs (Decidable True)

end Literal

/-! ### Digits -/

/-- The decimal digits. -/
def digits : Text := ['0', '1', '2', '3', '4', '5', '6', '7', '8', '9']

theorem mem_digits_of_isDigit {c : Char} (h : c.isDigit = true) : c ∈ digits := by
  have hall : ∀ k < 10, Char.ofNat (48 + k) ∈ digits := by decide
  rw [Char.isDigit, Bool.and_eq_true, decide_eq_true_iff, decide_eq_true_iff] at h
  have hlow : 48 ≤ c.toNat := h.1
  have hhigh : c.toNat ≤ 57 := h.2
  have hk := hall (c.toNat - 48) (by omega)
  rwa [Nat.add_sub_cancel' hlow, Char.ofNat_toNat] at hk

theorem mem_digits_of_mem_toDigits {n : Nat} {c : Char} (h : c ∈ Nat.toDigits 10 n) :
    c ∈ digits :=
  mem_digits_of_isDigit (Nat.isDigit_of_mem_toDigits (by decide) (by decide) h)

/-- The first digit of a positive number is not zero. -/
theorem head?_toDigits {n : Nat} (h : 0 < n) : (Nat.toDigits 10 n).head? ≠ some '0' := by
  induction n using Nat.strongRecOn with
  | ind n ih =>
      rcases Nat.lt_or_ge n 10 with hlt | hge
      · have hall : ∀ d < 10, 0 < d → some d.digitChar ≠ some '0' := by decide
        rw [Nat.toDigits_of_lt_base hlt]
        exact hall n hlt h
      · have hfirst := ih (n / 10) (by omega) (by omega)
        rw [Nat.toDigits_of_base_le (by decide) hge, List.head?_append]
        cases hdigits : (Nat.toDigits 10 (n / 10)).head? with
        | none => exact absurd (List.head?_eq_none_iff.1 hdigits) Nat.toDigits_ne_nil
        | some c => rwa [hdigits] at hfirst

section Words

variable {ds : Text} (hds : ∀ c ∈ ds, c ∈ digits)
include hds

theorem notMem_of_digits {d : Char} (hd : d ∉ digits) : d ∉ ds := fun h => hd (hds d h)

theorem valueIn_eq_ofDigitChars : valueIn 10 ds = Nat.ofDigitChars 10 ds 0 := by
  have hdigit : ∀ c ∈ digits, (Quotation.hexDigit? c).getD 0 = c.toNat - '0'.toNat :=
    List.all_iff_forall_prop.1 (by decide)
  rw [valueIn, Nat.ofDigitChars_eq_foldl]
  exact List.foldl_ext _ _ _ fun n c hc => by rw [hdigit c (hds c hc)]

theorem isGroupedFrom_of_digits (p : Char → Bool) (after : Bool) :
    isGroupedFrom p after ds = true := by
  induction ds generalizing after with
  | nil => rfl
  | cons c ds ih =>
      rw [List.forall_mem_cons] at hds
      have hc : c ≠ '_' := ne_of_mem_of_not_mem hds.1 (by decide)
      rw [isGroupedFrom, if_neg hc]
      exact ih hds.2 (p c)

theorem ungrouped_of_digits : ungrouped ds = ds :=
  List.filter_eq_self.2 fun c hc =>
    decide_eq_true (ne_of_mem_of_not_mem (hds c hc) (by decide))

theorem isWhole_of_digits (hne : ds ≠ []) (hzero : ds.head? ≠ some '0' ∨ ds = ['0']) :
    isWhole ds = true := by
  have hdigit : ∀ c ∈ digits, c.isDigit = true := List.all_iff_forall_prop.1 (by decide)
  have hrest : ds.dropWhile Char.isDigit = [] :=
    List.dropWhile_eq_nil_iff.2 fun c hc => hdigit c (hds c hc)
  have hspace : ¬ ' ' ∈ ds := notMem_of_digits hds (by decide)
  simp [isWhole, hrest, hne, hspace, hzero]

/-- **Decimal digits are read as their number**, with a sign in front of them or without. -/
theorem decimal?_of_digits (hne : ds ≠ []) (hzero : ds.head? ≠ some '0' ∨ ds = ['0'])
    (negative : Bool) :
    decimal? negative ds = some (.ofInteger (withSign negative (Nat.ofDigitChars 10 ds 0))) := by
  have hinf : ds ≠ ['i', 'n', 'f'] := by
    rintro rfl
    exact absurd (hds 'i' (by decide)) (by decide)
  have hnan : ds ≠ ['n', 'a', 'n'] := by
    rintro rfl
    exact absurd (hds 'n' (by decide)) (by decide)
  have hmark : ¬ ds.any isMark = true := by
    have hall : ∀ c ∈ digits, ¬ isMark c = true := List.all_iff_forall_prop.1 (by decide)
    rw [List.any_eq_true]
    rintro ⟨c, hc, hm⟩
    exact hall c (hds c hc) hm
  have hten : ds.all (isDigitIn 10) = true := by
    have hall : ∀ c ∈ digits, isDigitIn 10 c = true := List.all_iff_forall_prop.1 (by decide)
    exact List.all_eq_true.2 fun c hc => hall c (hds c hc)
  rw [decimal?, if_neg hinf, if_neg hnan, if_neg hmark,
    if_pos ⟨isWhole_of_digits hds hne hzero, isGroupedFrom_of_digits hds _ _⟩,
    ungrouped_of_digits hds, integer, if_pos ⟨hne, hten⟩, valueIn_eq_ofDigitChars hds]

theorem number?_of_digits : number? ds = decimal? false ds := by
  have hx : 'x' ∉ ds := notMem_of_digits hds (by decide)
  have ho : 'o' ∉ ds := notMem_of_digits hds (by decide)
  have hb : 'b' ∉ ds := notMem_of_digits hds (by decide)
  have hplus : '+' ∉ ds := notMem_of_digits hds (by decide)
  have hminus : '-' ∉ ds := notMem_of_digits hds (by decide)
  unfold number?
  split <;> simp_all

end Words

/-! ### Dates and times -/

namespace Moment

variable {t : Text}

theorem after?_of_notMem {c : Char} (h : c ∉ t) : after? c t = none := by
  cases t with
  | nil => rfl
  | cons d t =>
      rw [List.mem_cons, not_or] at h
      exact if_neg h.1

theorem eq_drop_of_number? {n k : Nat} {rest : Text} (h : number? n t = some (k, rest)) :
    rest = t.drop n := by
  rw [number?, Option.ite_none_right_eq_some] at h
  cases h.2
  rfl

/-- There is a hyphen behind the year of a date. -/
theorem date?_of_notMem (h : '-' ∉ t) : date? t = none := by
  rw [date?]
  cases hyear : number? 4 t with
  | none => rfl
  | some r =>
      obtain ⟨year, rest⟩ := r
      have hafter : after? '-' rest = none := by
        rw [eq_drop_of_number? hyear]
        exact after?_of_notMem fun hmem => h (List.mem_of_mem_drop hmem)
      simp only [Option.bind_eq_bind, Option.bind_some, hafter, Option.bind_none]

/-- A date begins with a digit. -/
theorem date?_hyphen_cons (t : Text) : date? ('-' :: t) = none := by
  have hyear : number? 4 ('-' :: t) = none := if_neg fun h => by
    rw [List.take_succ_cons, List.all_cons] at h
    exact Bool.false_ne_true h.2
  rw [date?, hyear]
  rfl

/-- There is a colon behind the hour of a time. -/
theorem time?_of_notMem (h : ':' ∉ t) : time? t = none := by
  rw [time?]
  cases hhour : number? 2 t with
  | none => simp only [bounded?, hhour, Option.bind_eq_bind, Option.bind_none]
  | some r =>
      obtain ⟨hour, rest⟩ := r
      have hafter : after? ':' rest = none := by
        rw [eq_drop_of_number? hhour]
        exact after?_of_notMem fun hmem => h (List.mem_of_mem_drop hmem)
      simp only [bounded?, hhour]
      split
      · simp only [Option.bind_eq_bind, Option.bind_some, hafter, Option.bind_none]
      · rfl

theorem isMoment_of_notMem (hdate : date? t = none) (h : ':' ∉ t) : isMoment t = false := by
  rw [isMoment, hdate, time?_of_notMem h]
  rfl

end Moment

/-! ### Words -/

namespace Literal

variable {l : Literal} {negative : Bool} {n : Nat} {c : Char}

theorem mem_text_integer (h : c ∈ (integer negative n).text) : c ∈ '-' :: digits := by
  rcases List.mem_append.1 h with hsign | hdigits
  · cases negative with
    | false => cases hsign
    | true => exact List.mem_cons.2 (.inl (List.mem_singleton.1 hsign))
  · exact List.mem_cons_of_mem _ (mem_digits_of_mem_toDigits hdigits)

/-- Literals are made of characters of words, and no quote is among these. -/
theorem isWordPart_of_mem_text (h : c ∈ l.text) : isWordPart c = true ∧ c ≠ '"' ∧ c ≠ '\'' := by
  cases l with
  | integer negative n =>
      have hall : ∀ c ∈ '-' :: digits, isWordPart c = true ∧ c ≠ '"' ∧ c ≠ '\'' :=
        List.all_iff_forall_prop.1 (by decide)
      exact hall c (mem_text_integer h)
  | boolean b =>
      have hall : ∀ c ∈ booleanText b, isWordPart c = true ∧ c ≠ '"' ∧ c ≠ '\'' := by
        cases b <;> exact List.all_iff_forall_prop.1 (by decide)
      exact hall c h

theorem text_ne_nil (l : Literal) : l.text ≠ [] := by
  cases l with
  | integer negative n => exact List.append_ne_nil_of_right_ne_nil _ Nat.toDigits_ne_nil
  | boolean b => cases b <;> decide

theorem isMoment_text_integer : Moment.isMoment (integer negative n).text = false := by
  have hcolon : ':' ∉ (integer negative n).text := fun h =>
    absurd (mem_text_integer h) (by decide)
  cases negative with
  | false =>
      have hhyphen : '-' ∉ (integer false n).text :=
        notMem_of_digits (fun c => mem_digits_of_mem_toDigits) (by decide)
      exact Moment.isMoment_of_notMem (Moment.date?_of_notMem hhyphen) hcolon
  | true => exact Moment.isMoment_of_notMem (Moment.date?_hyphen_cons _) hcolon

theorem number?_text_integer :
    number? (integer negative n).text = some (.ofInteger (withSign negative n)) := by
  have hds : ∀ c ∈ Nat.toDigits 10 n, c ∈ digits := fun c => mem_digits_of_mem_toDigits
  have hzero : (Nat.toDigits 10 n).head? ≠ some '0' ∨ Nat.toDigits 10 n = ['0'] := by
    rcases Nat.eq_zero_or_pos n with rfl | hpos
    · exact .inr (Nat.toDigits_zero 10)
    · exact .inl (head?_toDigits hpos)
  have hread := decimal?_of_digits hds Nat.toDigits_ne_nil hzero negative
  rw [Nat.ofDigitChars_ten_toDigits] at hread
  cases negative with
  | false => exact (number?_of_digits hds).trans hread
  | true => exact hread

/-- **A literal is read as its value.** -/
theorem word?_text (hl : l.IsReadable) : word? l.text = some l.value := by
  cases l with
  | integer negative n =>
      have hletter : ∀ {c w}, c ∈ w → c ∉ '-' :: digits → (integer negative n).text ≠ w := by
        rintro c w hc hnot rfl
        exact hnot (mem_text_integer hc)
      have hvalue : Value.ofInteger (withSign negative n) = .integer (withSign negative n) := by
        obtain ⟨hlow, hhigh⟩ := hl
        rw [Value.ofInteger, if_pos ⟨hlow, by omega⟩]
      have htrue : (integer negative n).text ≠ ['t', 'r', 'u', 'e'] :=
        hletter List.mem_cons_self (by decide)
      have hfalse : (integer negative n).text ≠ ['f', 'a', 'l', 's', 'e'] :=
        hletter List.mem_cons_self (by decide)
      rw [word?, if_neg htrue, if_neg hfalse, isMoment_text_integer, if_neg Bool.false_ne_true,
        number?_text_integer, hvalue]
      rfl
  | boolean b => cases b <;> rfl

end Literal

end RecordLog.Toml
