import Mathlib.Algebra.Group.Nat.Defs
import RecordLog.Environment.Seed
import RecordLog.Proofs.Decimal.Signed64
import RecordLog.Proofs.Text.Utf8

/-!
# Which texts set a seed

A text sets a seed if it is white space, a plus sign or none, decimal digits and white space again,
and the digits stand for a positive number of 63 bits. Every other text leaves the default: taking
the white space off gives nothing but the white space away, and what is left is read by its value,
however many digits there are.

## Main definitions

* `RecordLog.Seed.Sets`.

## Main results

* `RecordLog.Blank.exists_eq_trim` and `RecordLog.Blank.trim_append`.
* `RecordLog.Seed.ofText_eq_of_sets` and `RecordLog.Seed.ofText_of_not_sets`.
* `RecordLog.Seed.set_by_positive_decimals`.
-/

namespace RecordLog

/-! ### White space -/

namespace Blank

variable {before core after t : Text}

theorem trimStart_append (h : ∀ c ∈ before, isBlank c) (t : Text) :
    trimStart (before ++ t) = trimStart t :=
  List.dropWhile_append_of_pos h

/-- Nothing is taken off a text that begins with something else. -/
theorem trimStart_append_of_not (hcore : ∀ c ∈ core, ¬ isBlank c) (hne : core ≠ []) (t : Text) :
    trimStart (core ++ t) = core ++ t := by
  cases core with
  | nil => exact absurd rfl hne
  | cons c core => exact List.dropWhile_cons_of_neg (hcore c List.mem_cons_self)

/-- **What is taken off is white space**, before what is left and after it. -/
theorem exists_eq_trim (t : Text) : ∃ before after, t = before ++ trim t ++ after ∧
    (∀ c ∈ before, isBlank c) ∧ ∀ c ∈ after, isBlank c := by
  have hstart (t : Text) : ∃ before, t = before ++ trimStart t ∧ ∀ c ∈ before, isBlank c :=
    ⟨t.takeWhile isBlank, List.takeWhile_append_dropWhile.symm,
      fun c hc => List.all_eq_true.1 List.all_takeWhile c hc⟩
  obtain ⟨before, hbefore, hblank⟩ := hstart t
  obtain ⟨after, hafter, hblank'⟩ := hstart (trimStart t).reverse
  have hend : trimStart t = trim t ++ after.reverse := by
    rw [trim, trimEnd, ← List.reverse_append, ← hafter, List.reverse_reverse]
  refine ⟨before, after.reverse, ?_, hblank, fun c hc => hblank' c (List.mem_reverse.1 hc)⟩
  rw [List.append_assoc, ← hend]
  exact hbefore

/-- **White space is taken off** a text that has none itself. -/
theorem trim_append (hbefore : ∀ c ∈ before, isBlank c) (hafter : ∀ c ∈ after, isBlank c)
    (hcore : ∀ c ∈ core, ¬ isBlank c) (hne : core ≠ []) :
    trim (before ++ core ++ after) = core := by
  have hback : ∀ c ∈ core.reverse, ¬ isBlank c := fun c hc => hcore c (List.mem_reverse.1 hc)
  have hsome : core.reverse ≠ [] := fun h => hne (List.reverse_eq_nil_iff.1 h)
  have hall := trimStart_append_of_not hback hsome []
  rw [List.append_nil] at hall
  rw [trim, List.append_assoc, trimStart_append hbefore, trimStart_append_of_not hcore hne, trimEnd,
    List.reverse_append,
    trimStart_append (fun c hc => hafter c (List.mem_reverse.1 hc)), hall, List.reverse_reverse]

theorem not_isBlank_of_isDigit {c : Char} (hc : c.isDigit) : ¬ isBlank c := by
  obtain ⟨hlow, hhigh⟩ := Char.isDigit_iff_toNat.1 hc
  have hlow : 48 ≤ c.toNat := hlow
  have hhigh : c.toNat ≤ 57 := hhigh
  simp only [isBlank, Bool.or_eq_true, Bool.and_eq_true, decide_eq_true_eq, beq_iff_eq]
  omega

end Blank

/-! ### Texts -/

namespace Seed

variable {t : Text} {n : Nat}

/-- A text sets a seed: white space, a plus sign or none, and digits with white space after them,
which stand for a positive number of 63 bits. -/
def Sets (t : Text) (n : Nat) : Prop :=
  ∃ before sign digits after, t = before ++ (sign ++ digits) ++ after ∧
    (∀ c ∈ before, Blank.isBlank c) ∧ (∀ c ∈ after, Blank.isBlank c) ∧
    (sign = [] ∨ sign = ['+']) ∧ digits ≠ [] ∧ (∀ c ∈ digits, c.isDigit) ∧
    Nat.ofDigitChars 10 digits 0 = n ∧ 0 < n ∧ n < 2 ^ 63

theorem lt_iff_le_greatest : n < 2 ^ 63 ↔ (n : Int) ≤ Signed64.greatest := by
  rw [Signed64.greatest]
  omega

/-- **A text sets the positive number that it stands for.** -/
theorem sets_iff (hn : 0 < n) : Sets t n ↔ number? t = some (n : Int) := by
  rw [number?, Signed64.ofText?_eq_some_iff (by omega)]
  constructor
  · rintro ⟨before, sign, digits, after, rfl, hbefore, hafter, hsign, hne, hdigits, hvalue, -, hlt⟩
    have hcore : ∀ c ∈ sign ++ digits, ¬ Blank.isBlank c := by
      intro c hc
      rcases List.mem_append.1 hc with hc | hc
      · rcases hsign with rfl | rfl
        · exact absurd hc List.not_mem_nil
        · rw [List.mem_singleton.1 hc]
          decide
      · exact Blank.not_isBlank_of_isDigit (hdigits c hc)
    rw [Blank.trim_append hbefore hafter hcore (List.append_ne_nil_of_right_ne_nil _ hne)]
    exact ⟨sign, digits, rfl, hsign, hne, hdigits, congrArg Nat.cast hvalue,
      lt_iff_le_greatest.1 hlt⟩
  · rintro ⟨sign, digits, htrim, hsign, hne, hdigits, hvalue, hle⟩
    obtain ⟨before, after, ht, hbefore, hafter⟩ := Blank.exists_eq_trim t
    rw [htrim] at ht
    exact ⟨before, sign, digits, after, ht, hbefore, hafter, hsign, hne, hdigits,
      Int.ofNat_inj.1 hvalue, hn, lt_iff_le_greatest.2 hle⟩

theorem Sets.pos (h : Sets t n) : 0 < n := by
  obtain ⟨_, _, _, _, -, -, -, -, -, -, -, hn, -⟩ := h
  exact hn

theorem Sets.lt (h : Sets t n) : n < 2 ^ 63 := by
  obtain ⟨_, _, _, _, -, -, -, -, -, -, -, -, hn⟩ := h
  exact hn

theorem ofText_eq_of_sets (h : Sets t n) : ofText (some t) = n := by
  have hpos : (0 : Int) < n := by
    have hn := h.pos
    omega
  rw [ofText, Option.bind_some, (sets_iff h.pos).1 h, Option.filter_some_pos (by simpa using hpos)]
  rfl

/-- What stands for no positive number leaves the default. -/
theorem ofText_of_not_sets (h : ∀ n, ¬ Sets t n) : ofText (some t) = unset := by
  rw [ofText, Option.bind_some]
  split
  · rename_i k hk
    obtain ⟨hnumber, hpos⟩ := Option.filter_eq_some_iff.1 hk
    have hpos : 0 < k := of_decide_eq_true hpos
    obtain ⟨n, rfl⟩ := Int.eq_ofNat_of_zero_le (Int.le_of_lt hpos)
    exact absurd ((sets_iff (by omega)).2 hnumber) (h n)
  · rfl

/-- A seed is set by its decimal text. -/
theorem sets_toDigits (hn : 0 < n) (hlt : n < 2 ^ 63) : Sets (Nat.toDigits 10 n) n :=
  ⟨[], [], Nat.toDigits 10 n, [], (List.append_nil _).symm, nofun, nofun, Or.inl rfl,
    Nat.toDigits_ne_nil, fun _ hc => Nat.isDigit_of_mem_toDigits (by decide) (by decide) hc,
    Nat.ofDigitChars_ten_toDigits, hn, hlt⟩

/-- A seed is always a positive number of 63 bits. -/
theorem ofText_mem (t : Option Text) : 0 < ofText t ∧ ofText t < 2 ^ 63 := by
  cases t with
  | none => decide
  | some t =>
      by_cases h : ∃ n, Sets t n
      · obtain ⟨n, h⟩ := h
        rw [ofText_eq_of_sets h]
        exact ⟨h.pos, h.lt⟩
      · rw [ofText_of_not_sets fun n hn => h ⟨n, hn⟩]
        decide

/-! ### Settings -/

theorem decode?_encode (t : Text) : Utf8.decode? (Utf8.encode t) = some t := by
  rw [Utf8.decode?, Utf8.decodeLossy_encode, if_pos rfl]

theorem decode?_of_not_isValid {b : Bytes} (h : ¬ Utf8.IsValid b) : Utf8.decode? b = none :=
  if_neg fun hb => h ⟨_, hb⟩

/-- A setting that is missing or whose bytes are no text. -/
def IsTextless (setting : Option Bytes) : Prop := ∀ b, setting = some b → ¬ Utf8.IsValid b

theorem IsTextless.bind_decode? {setting : Option Bytes} (h : IsTextless setting) :
    setting.bind Utf8.decode? = none := by
  cases setting with
  | none => rfl
  | some b => exact decode?_of_not_isValid (h b rfl)

/-- The first setting counts if it is a text, whatever that text stands for. -/
theorem ofSettings_encode (t : Text) (general : Option Bytes) :
    ofSettings (some (Utf8.encode t)) general = ofText (some t) := by
  rw [ofSettings, Option.bind_some, decode?_encode, Option.some_or]

theorem ofSettings_of_isTextless {specific : Option Bytes} (h : IsTextless specific)
    (general : Option Bytes) :
    ofSettings specific general = ofText (general.bind Utf8.decode?) := by
  rw [ofSettings, h.bind_decode?, Option.none_or]

/-- **Seeds are set by positive decimal numbers of 63 bits and by nothing else.** A text that is
such a number, with a plus sign before it or none and with white space around it, sets this number,
also with leading zeros; any other text, and none, leaves 301. So the seed is always positive and
has 63 bits, and each such seed is set by its decimal text. Of two settings the first counts whose
bytes are a text, also if that text sets no seed. -/
theorem set_by_positive_decimals :
    (∀ t n, Sets t n → ofText (some t) = n) ∧
      (∀ t, (∀ n, ¬ Sets t n) → ofText (some t) = 301) ∧ ofText none = 301 ∧
      (∀ t, 1 ≤ ofText t ∧ ofText t ≤ 2 ^ 63 - 1) ∧
      (∀ n : Nat, 1 ≤ n → n ≤ 2 ^ 63 - 1 → ofText (some (toString n).toList) = n) ∧
      (∀ t general, ofSettings (some (Utf8.encode t)) general = ofText (some t)) ∧
      ∀ specific, IsTextless specific →
        (∀ t, ofSettings specific (some (Utf8.encode t)) = ofText (some t)) ∧
          ∀ general, IsTextless general → ofSettings specific general = 301 := by
  refine ⟨fun t n => ofText_eq_of_sets, fun t => ofText_of_not_sets, rfl, fun t => ?_,
    fun n hn hle => ?_, ofSettings_encode, fun specific hspecific => ⟨fun t => ?_, ?_⟩⟩
  · obtain ⟨hpos, hlt⟩ := ofText_mem t
    omega
  · rw [Nat.toString_eq_repr, Nat.toList_repr]
    exact ofText_eq_of_sets (sets_toDigits hn (by omega))
  · rw [ofSettings_of_isTextless hspecific, Option.bind_some, decode?_encode]
  · intro general hgeneral
    rw [ofSettings_of_isTextless hspecific, hgeneral.bind_decode?]
    rfl

/-- The greatest seed with zeros before it and an ideographic space and a line feed around it; the
number after it, which leaves the default; and a second setting that counts because the first one
is no text. -/
theorem set_by_positive_decimals_at_bound :
    Sets "\u3000+0009223372036854775807\n".toList 9223372036854775807 ∧
      ofText (some "\u3000+0009223372036854775807\n".toList) = 9223372036854775807 ∧
      (∀ n, ¬ Sets "9223372036854775808".toList n) ∧
      ofText (some "9223372036854775808".toList) = 301 ∧
      ofText (some (toString 9223372036854775807).toList) = 9223372036854775807 ∧
      IsTextless (some [0xFF]) ∧ IsTextless none ∧
      ofSettings (some [0xFF]) (some (Utf8.encode ['7'])) = ofText (some ['7']) ∧
      ofSettings (some [0xFF]) none = 301 := by
  have hsets : Sets "\u3000+0009223372036854775807\n".toList 9223372036854775807 :=
    (sets_iff (by decide)).2 (by decide)
  have hover : ∀ n, ¬ Sets "9223372036854775808".toList n := by
    intro n h
    have hnumber := (sets_iff h.pos).1 h
    rw [show number? "9223372036854775808".toList = none by decide] at hnumber
    cases hnumber
  have hbytes : IsTextless (some [0xFF]) := by
    rintro b ⟨⟩ hvalid
    exact absurd hvalid.encode_decodeLossy (by decide)
  have hnone : IsTextless none := nofun
  obtain ⟨hread, hdefault, -, -, hdecimal, -, hsettings⟩ := set_by_positive_decimals
  obtain ⟨hsecond, hneither⟩ := hsettings _ hbytes
  exact ⟨hsets, hread _ _ hsets, hover, hdefault _ hover, hdecimal _ (by decide) (by decide),
    hbytes, hnone, hsecond _, hneither _ hnone⟩

end Seed

end RecordLog
