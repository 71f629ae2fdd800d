import RecordLog.Toml.Reader

/-!
# Dates and times

A date is a year, a month and a day that the month has in that year. A time is an hour, a minute
and perhaps a second, with or without a fraction; the second may be a leap second. A date may be
followed by a time, and that by its offset from universal time.

## Main definitions

* `RecordLog.Toml.Moment.isMoment`.
-/

namespace RecordLog.Toml.Moment

/-- A number of the given count of digits. -/
def number? : Nat → Reader Nat
  | n, t =>
    let ds := t.take n
    if ds.length = n ∧ ds.all Char.isDigit then some (Nat.ofDigitChars 10 ds 0, t.drop n) else none

/-- A number of two digits, between the given bounds. -/
def bounded? (least greatest : Nat) : Reader Nat := fun t =>
  match number? 2 t with
  | some (n, rest) => if least ≤ n ∧ n ≤ greatest then some (n, rest) else none
  | none => none

/-- How many days a month has. -/
def daysIn (year month : Nat) : Nat :=
  if month = 2 then
    if year % 4 = 0 ∧ (year % 100 ≠ 0 ∨ year % 400 = 0) then 29 else 28
  else if month = 4 ∨ month = 6 ∨ month = 9 ∨ month = 11 then 30
  else 31

/-- The text after a given character at its front. -/
def after? (c : Char) : Text → Option Text
  | d :: rest => if c = d then some rest else none
  | [] => none

/-- The text after a date. -/
def date? (t : Text) : Option Text := do
  let (year, t) ← number? 4 t
  let t ← after? '-' t
  let (month, t) ← bounded? 1 12 t
  let t ← after? '-' t
  let (_, t) ← bounded? 1 (daysIn year month) t
  return t

/-- The text after the fraction of a second, if there is one. -/
def fraction? : Text → Option Text
  | '.' :: rest =>
    if rest.takeWhile Char.isDigit = [] then none else some (rest.dropWhile Char.isDigit)
  | t => some t

/-- The text after a time. -/
def time? (t : Text) : Option Text := do
  let (_, t) ← bounded? 0 23 t
  let t ← after? ':' t
  let (_, t) ← bounded? 0 59 t
  match t with
  | ':' :: t =>
    let (_, t) ← bounded? 0 60 t
    fraction? t
  | t => return t

/-- Whether a text is an offset, or nothing. -/
def isOffset : Text → Bool
  | [] => true
  | ['Z'] => true
  | ['z'] => true
  | c :: t =>
    if c = '+' ∨ c = '-' then
      (do
        let (_, t) ← bounded? 0 23 t
        let t ← after? ':' t
        let (_, t) ← bounded? 0 59 t
        return t) = some []
    else
      false

/-- Whether a text is a date, a time, or a date with a time. -/
def isMoment (t : Text) : Bool :=
  match date? t with
  | none => time? t = some []
  | some [] => true
  | some (c :: t) =>
    (c = 'T' || c = 't' || c = ' ') &&
      match time? t with
      | none => false
      | some t => isOffset t

end RecordLog.Toml.Moment
