import RecordLog.Toml.Quotation
import RecordLog.Toml.Value

/-!
# Numbers

Integers are written in decimal, with a sign or none, or after `0x`, `0o` and `0b` to other bases.
A number with a fraction or an exponent is a binary number of 64 bits, as are infinity and what is
no number. Underscores stand between two digits. That an integer with underscores is not made of
digits only, or one to a base has none, is not known before the number is wanted.

## Main definitions

* `RecordLog.Toml.isGrouped`, where underscores may stand.
* `RecordLog.Toml.number?`.
-/

namespace RecordLog.Toml

/-! ### Underscores -/

/-- Whether each underscore in a text stands between two digits of a given class. The text comes
after such a digit, or it does not. -/
def isGroupedFrom (p : Char → Bool) : Bool → Text → Bool
  | _, [] => true
  | after, c :: t =>
    if c = '_' then after && t.head?.any p && isGroupedFrom p false t
    else isGroupedFrom p (p c) t

/-- Whether each underscore in a text stands between two digits of a given class. -/
def isGrouped (p : Char → Bool) (t : Text) : Bool := isGroupedFrom p false t

/-- A text without underscores. -/
def ungrouped (t : Text) : Text := t.filter (· ≠ '_')

/-! ### Integers -/

/-- Whether a character is a digit to a base. -/
def isDigitIn (base : Nat) (c : Char) : Bool := (Quotation.hexDigit? c).any (· < base)

/-- The whole number with given digits to a base. -/
def valueIn (base : Nat) (ds : Text) : Nat :=
  ds.foldl (fun n c => base * n + (Quotation.hexDigit? c).getD 0) 0

/-- A whole number with a sign. -/
def withSign (negative : Bool) (n : Nat) : Int := if negative then -n else n

/-- The integer with given digits to a base, if there are any and they all are digits. -/
def integer (base : Nat) (negative : Bool) (ds : Text) : Value :=
  if ds ≠ [] ∧ ds.all (isDigitIn base) then .ofInteger (withSign negative (valueIn base ds))
  else .unreadable

/-- An integer to a base, after the letter of that base. -/
def inBase? (base : Nat) (t : Text) : Option Value :=
  if t.all (fun c => isDigitIn base c || c = '_') ∧ isGrouped (isDigitIn base) t then
    some (integer base false (ungrouped t))
  else
    none

/-- Whether a text looks like a decimal integer after its sign: it begins with digits, of which the
first is zero only if it is the only character, an underscore comes before anything else, and there
is no space. -/
def isWhole (t : Text) : Bool :=
  let rest := t.dropWhile Char.isDigit
  t ≠ [] && (rest = [] || rest.head? = some '_') && !t.contains ' ' &&
    (t.head? ≠ some '0' || t = ['0'])

/-! ### Fractions and exponents -/

/-- Whether a character begins a fraction or an exponent. -/
def isMark (c : Char) : Bool := c = '.' || c = 'e' || c = 'E'

/-- A sequence of digits with a sign or none. -/
def exponentDigits? (t : Text) : Option Int :=
  match t with
  | '+' :: t => digits? false t
  | '-' :: t => digits? true t
  | t => digits? false t
where
  /-- The number with given digits, if there are any and they all are digits. -/
  digits? (negative : Bool) (ds : Text) : Option Int :=
    if ds ≠ [] ∧ ds.all Char.isDigit then some (withSign negative (Nat.ofDigitChars 10 ds 0))
    else none

/-- An exponent, if there is one. -/
def exponent? : Text → Option Int
  | [] => some 0
  | c :: t => if c = 'e' ∨ c = 'E' then exponentDigits? t else none

/-- A number without underscores that has a fraction or an exponent, after its sign. -/
def fractional? (negative : Bool) (t : Text) : Option Binary64 :=
  let whole := t.takeWhile Char.isDigit
  if whole = [] then
    none
  else
    match t.dropWhile Char.isDigit with
    | '.' :: t =>
      let part := t.takeWhile Char.isDigit
      if part = [] then
        none
      else
        (exponent? (t.dropWhile Char.isDigit)).map fun e =>
          .ofDecimal negative (Nat.ofDigitChars 10 (whole ++ part) 0) (e - part.length)
    | t =>
      (exponent? t).map fun e => .ofDecimal negative (Nat.ofDigitChars 10 whole 0) e

/-- Whether a number begins with a zero that other digits follow. -/
def hasLeadingZero (t : Text) : Bool :=
  t.head? = some '0' && 1 < ((ungrouped t).takeWhile Char.isDigit).length

/-! ### Numbers -/

/-- A decimal number after its sign. -/
def decimal? (negative : Bool) (t : Text) : Option Value :=
  if t = ['i', 'n', 'f'] then some (.float (.infinite negative))
  else if t = ['n', 'a', 'n'] then some (.float .nan)
  else if t.any isMark then
    if isGrouped Char.isDigit t ∧ !hasLeadingZero t then
      (fractional? negative (ungrouped t)).map .ofNearest
    else
      none
  else if isWhole t ∧ isGrouped (isDigitIn 16) t then
    some (integer 10 negative (ungrouped t))
  else
    none

/-- A number. -/
def number? : Text → Option Value
  | '0' :: 'x' :: t => inBase? 16 t
  | '0' :: 'o' :: t => inBase? 8 t
  | '0' :: 'b' :: t => inBase? 2 t
  | '+' :: t => decimal? false t
  | '-' :: t => decimal? true t
  | t => decimal? false t

end RecordLog.Toml
