import RecordLog.Toml.Reader

/-!
# Strings between quotes

Strings stand between double or single quotes, and between three of them they may extend over
lines. Between double quotes a backslash begins an escape; over lines, one before a line end hides
that line end and all blanks and line ends after it.

## Main definitions

* `RecordLog.Toml.Quotation.read`, the string after an opening quote of a given style.
* `RecordLog.Toml.Quotation.string?` and `RecordLog.Toml.Quotation.lineString?`, strings of all
  styles and of those within a line.
-/

namespace RecordLog.Toml.Quotation

/-- How a string is quoted: whether it may extend over lines, and whether backslashes stand for
themselves. -/
structure Style where
  multiline : Bool
  literal : Bool
  deriving DecidableEq, Repr

/-- The quote of a style. -/
def Style.quote (y : Style) : Char := if y.literal then '\'' else '"'

/-- Where a reader stands within a string. -/
inductive Mode
  /-- Between the characters of the string. -/
  | plain
  /-- After a backslash. -/
  | escaped
  /-- Within a number, of which some digits are left and some have been read. -/
  | numbered (left value : Nat)
  /-- After a backslash and blanks, before the line end that it hides. -/
  | folding
  /-- After a line end that is hidden. -/
  | folded
  deriving DecidableEq, Repr

/-- What a character does: it leads on, with characters of the string, or ends the string, with
the text that is left, or is not allowed. -/
inductive Action
  | next (out : Text) (m : Mode)
  | stop (out rest : Text)
  | fail

/-- What an escape of one character stands for. -/
def escape? : Char → Option Char
  | 'b' => some '\x08'
  | 't' => some '\t'
  | 'n' => some '\n'
  | 'f' => some '\x0c'
  | 'r' => some '\r'
  | 'e' => some '\x1b'
  | '"' => some '"'
  | '\\' => some '\\'
  | _ => none

/-- How many digits follow an escape by number. -/
def escapeDigits? : Char → Option Nat
  | 'x' => some 2
  | 'u' => some 4
  | 'U' => some 8
  | _ => none

/-- The value of a hexadecimal digit. -/
def hexDigit? (c : Char) : Option Nat :=
  if '0' ≤ c ∧ c ≤ '9' then some (c.toNat - '0'.toNat)
  else if 'a' ≤ c ∧ c ≤ 'f' then some (c.toNat - 'a'.toNat + 10)
  else if 'A' ≤ c ∧ c ≤ 'F' then some (c.toNat - 'A'.toNat + 10)
  else none

/-- What a quote does in a string over lines, before the given rest: the third one in a row ends
the string, and up to two before it belong to it. -/
def closing (q : Char) (rest : Text) : Action :=
  match rest with
  | a :: b :: rest =>
    if a = q ∧ b = q then
      let extra := ((rest.take 2).takeWhile (· = q)).length
      .stop (List.replicate extra q) (rest.drop extra)
    else
      .next [q] .plain
  | _ => .next [q] .plain

/-- What a character does between the characters of a string, before the given rest. -/
def plainStep (y : Style) (c : Char) (rest : Text) : Action :=
  if c = y.quote then
    if y.multiline then closing c rest else .stop [] rest
  else if c = '\\' ∧ !y.literal then .next [] .escaped
  else if isPlain c then .next [c] .plain
  else if y.multiline ∧ (c = '\n' ∨ c = '\r' ∧ rest.head? = some '\n') then .next [c] .plain
  else .fail

/-- What a character does after a backslash and perhaps blanks, where a line end is hidden. -/
def foldStep (c : Char) (rest : Text) : Action :=
  if isBlank c then .next [] .folding
  else if c = '\n' then .next [] .folded
  else if c = '\r' ∧ rest.head? = some '\n' then .next [] .folded
  else .fail

/-- What a digit does within a number. -/
def numberStep (left value : Nat) (c : Char) : Action :=
  match hexDigit? c with
  | none => .fail
  | some d =>
    let value := 16 * value + d
    if 1 < left then .next [] (.numbered (left - 1) value)
    else if value.isValidChar then .next [Char.ofNat value] .plain
    else .fail

/-- What a character does, before the given rest. -/
def step (y : Style) (m : Mode) (c : Char) (rest : Text) : Action :=
  match m with
  | .plain => plainStep y c rest
  | .escaped =>
    match escape? c, escapeDigits? c with
    | some e, _ => .next [e] .plain
    | none, some n => .next [] (.numbered n 0)
    | none, none => if y.multiline then foldStep c rest else .fail
  | .numbered left value => numberStep left value c
  | .folding => foldStep c rest
  | .folded =>
    if isBlank c ∨ c = '\n' ∨ c = '\r' ∧ rest.head? = some '\n' then .next [] .folded
    else plainStep y c rest

/-- The rest of a string of a given style. -/
def read (y : Style) : Mode → Reader Text
  | _, [] => none
  | m, c :: rest =>
    match step y m c rest with
    | .fail => none
    | .stop out rest => some (out, rest)
    | .next out m => (read y m rest).map fun (t, left) => (out ++ t, left)

/-- A string within a line. -/
def lineString? : Reader Text
  | '"' :: rest => read ⟨false, false⟩ .plain rest
  | '\'' :: rest => read ⟨false, true⟩ .plain rest
  | _ => none

/-- A string over lines, of which a line end right after the opening quotes is no part, or within
a line. -/
def string? : Reader Text
  | '"' :: '"' :: '"' :: rest => read ⟨true, false⟩ .plain ((newline? rest).getD rest)
  | '\'' :: '\'' :: '\'' :: rest => read ⟨true, true⟩ .plain ((newline? rest).getD rest)
  | t => lineString? t

end RecordLog.Toml.Quotation
