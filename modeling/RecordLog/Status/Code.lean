/-!
# Status codes

The outcomes that a status can report, with the numbers that stand for them in stored statuses,
the labels that people read and the names that diagnostics show.

## Main definitions

* `RecordLog.Code`, with `Code.number`, `Code.ofNumber?`, `Code.label` and `Code.name`.
-/

namespace RecordLog

/-- Outcomes that a status reports: success, or a kind of failure. -/
inductive Code
  | ok
  | notFound
  | alreadyExists
  | corruption
  | notSupported
  | invalidArgument
  | ioError
  | assertionFailed
  | accessDenied
  deriving DecidableEq, Repr

namespace Code

/-- The codes in the order of their numbers. -/
def all : List Code :=
  [.ok, .notFound, .alreadyExists, .corruption, .notSupported, .invalidArgument, .ioError,
    .assertionFailed, .accessDenied]

/-- The number that stands for a code in stored statuses. -/
def number : Code → UInt8
  | .ok => 0
  | .notFound => 1
  | .alreadyExists => 2
  | .corruption => 3
  | .notSupported => 4
  | .invalidArgument => 5
  | .ioError => 6
  | .assertionFailed => 7
  | .accessDenied => 8

/-- The greatest number of a code. -/
def maxNumber : UInt8 := 8

/-- The code with a given number. -/
def ofNumber? (n : UInt8) : Option Code := all.find? fun c => c.number = n

/-- What a code is called where people read it. -/
def label : Code → String
  | .ok => "OK"
  | .notFound => "Not found"
  | .alreadyExists => "Already exists"
  | .corruption => "Corruption"
  | .notSupported => "Not implemented"
  | .invalidArgument => "Invalid argument"
  | .ioError => "IO error"
  | .assertionFailed => "Assertion failed"
  | .accessDenied => "Permission denied"

/-- What a code is called in diagnostics. -/
def name : Code → String
  | .ok => "Ok"
  | .notFound => "NotFound"
  | .alreadyExists => "AlreadyExists"
  | .corruption => "Corruption"
  | .notSupported => "NotSupported"
  | .invalidArgument => "InvalidArgument"
  | .ioError => "IoError"
  | .assertionFailed => "AssertionFailed"
  | .accessDenied => "AccessDenied"

instance : Ord Code := ⟨fun a b => compare a.number b.number⟩

theorem mem_all (c : Code) : c ∈ all := by cases c <;> decide

@[simp] theorem ofNumber?_number (c : Code) : ofNumber? c.number = some c := by cases c <;> rfl

theorem number_of_ofNumber?_eq_some {n : UInt8} {c : Code} (h : ofNumber? n = some c) :
    c.number = n := by
  simpa using List.find?_some h

theorem number_le_maxNumber (c : Code) : c.number ≤ maxNumber := by cases c <;> decide

theorem number_eq_zero_iff {c : Code} : c.number = 0 ↔ c = .ok := by cases c <;> decide

/-- Up to the greatest number, every number is that of a code. -/
theorem exists_number_eq {n : UInt8} (h : n ≤ maxNumber) : ∃ c : Code, c.number = n := by
  have hall : ∀ k < 9, ∃ c ∈ all, c.number = UInt8.ofNat k := by decide
  obtain ⟨c, -, hc⟩ := hall n.toNat (Nat.lt_succ_of_le (UInt8.le_iff_toNat_le.1 h))
  exact ⟨c, by rw [hc, UInt8.ofNat_toNat]⟩

theorem ofNumber?_eq_none {n : UInt8} (h : maxNumber < n) : ofNumber? n = none := by
  rw [ofNumber?, List.find?_eq_none]
  intro c _ hc
  rw [decide_eq_true_eq] at hc
  exact absurd (hc ▸ c.number_le_maxNumber) (UInt8.not_le.2 h)

end Code

end RecordLog
