import RecordLog.Options.Printing
import RecordLog.Options.Reading
import RecordLog.Proofs.Toml.Line

/-!
# What is asked of a format

Options are kept in documents of some format, which they do not look into. What can be said of
options in documents rests on what the format does with plain ones, where each line gives an integer
or a truth value to a key. These are the properties on which it rests, one by one: that plain lines
are handed over, that literals are read as the values of a kind, what is said of a literal that is
not of the kind, that entries come in the order of their keys, and that single values are written as
plain lines. None of them knows of options.

## Main definitions

* `RecordLog.Options.Setting.Kind.Takes`, which literals are of a kind, and
  `RecordLog.Options.Setting.Kind.Complains`, what is said of one that is not.
* `RecordLog.Format.ReadsLines`, `RecordLog.Format.ReadsValues`, `RecordLog.Format.Explains`,
  `RecordLog.Format.HandsOverInOrder` and `RecordLog.Format.WritesLines`.

## Main results

* `RecordLog.Options.Setting.Kind.takes_or_complains`: a literal is of a kind or complained of.
-/

namespace RecordLog

open Options (Setting)
open Toml (Line Literal withSign)

/-! ### Literals of a kind -/

namespace Options.Setting.Kind

/-- The greatest number of a kind, if it is one of numbers. -/
def greatest? : Kind → Option Int
  | count => some 0xffffffffffffffff
  | mode => some 0xffffffff
  | flag => none

/-- The numbers of 64 bits, signed ones and unsigned ones. -/
def IsWord (n : Int) : Prop := -0x8000000000000000 ≤ n ∧ n ≤ 0xffffffffffffffff

/-- Which literals are of a kind: numbers from zero to the greatest, or truth values. -/
inductive Takes : Kind → Literal → Prop
  | number {k : Kind} {g : Int} {negative : Bool} {n : Nat} (hg : k.greatest? = some g)
      (hlow : 0 ≤ withSign negative n) (hhigh : withSign negative n ≤ g) :
      Takes k (.integer negative n)
  | flag (b : Bool) : Takes flag (.boolean b)

/-- What is said about a literal that is not of the kind that is expected. A number of 64 bits where
one is expected is out of range. A number that is not of 64 bits is of another type wherever it
stands, as are truth values where numbers are expected and numbers where truth values are. -/
inductive Complains : Kind → Literal → Text → Prop
  | outOfRange {k : Kind} {g : Int} {negative : Bool} {n : Nat} (hg : k.greatest? = some g)
      (hrange : ¬ (0 ≤ withSign negative n ∧ withSign negative n ≤ g))
      (hword : IsWord (withSign negative n)) :
      Complains k (.integer negative n) ("invalid value: integer `".toList ++
        Toml.integerText (withSign negative n) ++ "`, expected ".toList ++ k.name.toList)
  | wide {k : Kind} {negative : Bool} {n : Nat} (hword : ¬ IsWord (withSign negative n)) :
      Complains k (.integer negative n) ("invalid type: integer `".toList ++
        Toml.integerText (withSign negative n) ++ "` as i128, expected ".toList ++ k.name.toList)
  | boolean {k : Kind} {g : Int} (hg : k.greatest? = some g) (b : Bool) :
      Complains k (.boolean b) ("invalid type: boolean `".toList ++ Toml.booleanText b ++
        "`, expected ".toList ++ k.name.toList)
  | number {k : Kind} {negative : Bool} {n : Nat} (hg : k.greatest? = none)
      (hword : IsWord (withSign negative n)) :
      Complains k (.integer negative n) ("invalid type: integer `".toList ++
        Toml.integerText (withSign negative n) ++ "`, expected ".toList ++ k.name.toList)

variable {k : Kind} {l : Literal} {said : Text} {g : Int}

theorem isWord_of_le (hg : k.greatest? = some g) {n : Int} (h : 0 ≤ n ∧ n ≤ g) : IsWord n := by
  have hle : g ≤ 0xffffffffffffffff := by cases k <;> cases hg <;> decide
  exact ⟨by omega, by omega⟩

/-- What is complained of is not taken. -/
theorem Complains.not_takes (h : k.Complains l said) : ¬ k.Takes l := by
  intro htakes
  cases h with
  | outOfRange hg hrange hword =>
      obtain ⟨hg', hlow, hhigh⟩ := htakes
      cases hg.symm.trans hg'
      exact hrange ⟨hlow, hhigh⟩
  | wide hword =>
      obtain ⟨hg, hlow, hhigh⟩ := htakes
      exact hword (isWord_of_le hg ⟨hlow, hhigh⟩)
  | boolean hg b =>
      cases htakes
      cases hg
  | number hg hword =>
      obtain ⟨hg', -, -⟩ := htakes
      cases hg.symm.trans hg'

theorem Complains.ne_nil (h : k.Complains l said) : said ≠ [] := by
  cases h <;> exact List.cons_ne_nil _ _

/-- **A literal is of a kind, or complained of.** -/
theorem takes_or_complains (k : Kind) (l : Literal) : k.Takes l ∨ ∃ said, k.Complains l said := by
  cases l with
  | boolean b =>
      cases hg : k.greatest? with
      | none =>
          obtain rfl : k = .flag := by cases k <;> first | rfl | cases hg
          exact .inl (.flag b)
      | some g => exact .inr ⟨_, .boolean hg b⟩
  | integer negative n =>
      by_cases hword : IsWord (withSign negative n)
      · cases hg : k.greatest? with
        | none => exact .inr ⟨_, .number hg hword⟩
        | some g =>
            by_cases hrange : 0 ≤ withSign negative n ∧ withSign negative n ≤ g
            · exact .inl (.number hg hrange.1 hrange.2)
            · exact .inr ⟨_, .outOfRange hg hrange hword⟩
      · exact .inr ⟨_, .wide hword⟩

end Options.Setting.Kind

/-! ### Properties of formats -/

namespace Format

variable (f : Format) (value : Literal → f.Value)

/-- The entry for a plain line. -/
def entryOf {f : Format} (value : Literal → f.Value) (l : Line) : Text × f.Value :=
  (l.key, value l.literal)

/-- Plain lines that satisfy `P` are a document, if no key is given twice, and they are handed over
with the values of their literals in some order. The last of them may have a line feed behind it or
not. -/
def ReadsLines (P : Line → Prop) : Prop :=
  ∀ (ended : Bool) (ls : List Line), (ls.map Line.key).Nodup → (∀ l ∈ ls, P l) →
    ∃ ms : List Line, ms.Perm ls ∧ f.entries (Line.document ended ls) = .ok (ms.map (entryOf value))

/-- Entries are handed over in the order of their keys, whatever the order of the lines is. -/
def HandsOverInOrder : Prop :=
  ∀ t es, f.entries t = .ok es → es.Pairwise fun e e' => ¬ e'.1 < e.1

/-- Numbers of 64 bits and of 32 bits are read as what they are, and truth values are. -/
structure ReadsValues : Prop where
  count {negative : Bool} {n : Nat} : 0 ≤ withSign negative n → n < UInt64.size →
    f.read .count (value (.integer negative n)) = .ok (.ofNat n)
  mode {negative : Bool} {n : Nat} : 0 ≤ withSign negative n → n < UInt32.size →
    f.read .mode (value (.integer negative n)) = .ok (.ofNat n)
  flag (b : Bool) : f.read .flag (value (.boolean b)) = .ok b

/-- What is said of literals that are not of the kind expected, as far as they are numbers of 128
bits; those of signed numbers of 64 bits are passed over if nothing is expected. -/
structure Explains : Prop where
  read_eq {k : Setting.Kind} {l : Literal} {said : Text} : l.IsReadable → k.Complains l said →
    f.read k (value l) = .error said
  skip_eq {l : Literal} : l.IsShort → f.skip (value l) = .ok ()

/-- A single value that is written as a plain line. -/
def Scalar.text : Scalar → Text
  | .natural n => Nat.toDigits 10 n
  | .truth b => Toml.booleanText b

/-- Single values are written as plain lines, in the order in which they are given, as long as the
numbers among them are of 64 bits. -/
def WritesLines : Prop :=
  ∀ es : List (Text × Scalar), (∀ e ∈ es, e.1 ≠ [] ∧ ∀ c ∈ e.1, Toml.isBare c = true) →
    (es.map Prod.fst).Nodup → (∀ k n, (k, .natural n) ∈ es → n < UInt64.size) →
    f.write es = .ok (es.flatMap fun e => e.1 ++ " = ".toList ++ e.2.text ++ ['\n'])

variable {f value}

/-- A format that reads more lines reads fewer. -/
theorem ReadsLines.mono {P Q : Line → Prop} (h : f.ReadsLines value P) (hPQ : ∀ l, Q l → P l) :
    f.ReadsLines value Q :=
  fun ended ls hkeys hls => h ended ls hkeys fun l hl => hPQ l (hls l hl)

/-- What is of a kind is read. -/
theorem ReadsValues.exists_read_eq (h : f.ReadsValues value) {k : Setting.Kind} {l : Literal}
    (hl : k.Takes l) : ∃ x, f.read k (value l) = .ok x := by
  cases hl with
  | flag b => exact ⟨b, h.flag b⟩
  | @number k g negative n hg hlow hhigh =>
      have hn : (n : Int) ≤ g := by
        cases negative with
        | false => exact hhigh
        | true =>
            have hzero : 0 ≤ -(n : Int) := hlow
            have hpos : 0 ≤ g := Int.le_trans hlow hhigh
            omega
      have hsize64 : UInt64.size = 0x10000000000000000 := rfl
      have hsize32 : UInt32.size = 0x100000000 := rfl
      cases k with
      | count =>
          cases hg
          exact ⟨_, h.count hlow (by omega)⟩
      | mode =>
          cases hg
          exact ⟨_, h.mode hlow (by omega)⟩
      | flag => cases hg

end Format

end RecordLog
