import RecordLog.Text.Utf8

/-!
# Binary numbers of 64 bits and their decimal texts

A finite number of this format is a whole number below `2 ^ 53` times a power of two from
`2 ^ (-1074)` to `2 ^ 971`. A decimal number is read as the nearest of them, of two as near the
one with the even whole number, and as infinite beyond their range. A number is written with the
fewest decimal digits that are read as it, of several such numbers the nearest, of two as near the
greater.

## Main definitions

* `RecordLog.Binary64`.
* `RecordLog.Binary64.ofDecimal`.
* `RecordLog.Binary64.shortest` and `RecordLog.Binary64.text`.
-/

namespace RecordLog

/-- Numbers of the format: `± mantissa * 2 ^ exponent`, infinities, and what is no number. -/
inductive Binary64
  | finite (negative : Bool) (mantissa : Nat) (exponent : Int)
  | infinite (negative : Bool)
  | nan
  deriving DecidableEq, Repr

namespace Binary64

/-- The least exponent. -/
def minExponent : Int := -1074

/-- The greatest exponent. -/
def maxExponent : Int := 971

/-- `10 ^ k` or `1`, for a power in a numerator or, by its negative, in a denominator. -/
def power (base : Nat) (k : Int) : Nat := base.pow k.toNat

/-! ### Reading -/

/-- The whole number nearest to a fraction, of two as near the even one. -/
def roundEven (num den : Nat) : Nat :=
  let q := num / den
  let r := num % den
  if 2 * r < den then q
  else if den < 2 * r then q + 1
  else q + q % 2

/-- `⌊num / den / 2 ^ e⌋`. -/
def scaledFloor (num den : Nat) (e : Int) : Nat := num * power 2 (-e) / (den * power 2 e)

/-- The exponent with which a positive fraction is written: the least with which the whole number
is below `2 ^ 53`, and not less than the least of the format. -/
def exponentFor (num den : Nat) : Int :=
  let guess : Int := (Nat.log2 num : Int) - Nat.log2 den - 52
  max minExponent (if scaledFloor num den guess < power 2 52 then guess - 1 else guess)

/-- The number nearest to a positive fraction. -/
def ofFraction (negative : Bool) (num den : Nat) : Binary64 :=
  let e := exponentFor num den
  let m := roundEven (num * power 2 (-e)) (den * power 2 e)
  let (m, e) := if m = power 2 53 then (power 2 52, e + 1) else (m, e)
  if maxExponent < e then .infinite negative else .finite negative m e

/-- The number nearest to `± digits * 10 ^ exponent`. A number of more than 310 digits before the
point is infinite, one with more than 350 zeros behind it is zero. -/
def ofDecimal (negative : Bool) (digits : Nat) (exponent : Int) : Binary64 :=
  let size : Int := (Nat.toDigits 10 digits).length + exponent
  if digits = 0 ∨ size < -350 then .finite negative 0 minExponent
  else if 310 < size then .infinite negative
  else ofFraction negative (digits * power 10 exponent) (power 10 (-exponent))

/-! ### Writing -/

/-- Whether `c * 10 ^ k` is read as `m * 2 ^ e`: it lies between the middles to the numbers on both
sides, or on one of them if `m` is even. Below a power of two the next number is half as far. -/
def readsAs (m : Nat) (e : Int) (c : Nat) (k : Int) : Bool :=
  let unit := power 2 (e - 2) * power 10 (-k)
  let low := (4 * m - if m = power 2 52 ∧ minExponent < e then 1 else 2) * unit
  let high := (4 * m + 2) * unit
  let x := c * power 10 k * power 2 (2 - e)
  if m % 2 = 0 then low ≤ x && x ≤ high else low < x && x < high

/-- `⌊m * 2 ^ e / 10 ^ k⌋`, and whether the whole number after it is as near or nearer. -/
def floorAt (m : Nat) (e k : Int) : Nat × Bool :=
  let num := m * power 2 e * power 10 (-k)
  let den := power 10 k * power 2 (-e)
  (num / den, den ≤ 2 * (num % den))

/-- How many digits `m * 2 ^ e` has before the point, less the zeros behind it if there are none. -/
def magnitude (m : Nat) (e : Int) : Int :=
  ((Nat.toDigits 10 (m * power 2 e * power 10 400 / power 2 (-e))).length : Int) - 400

/-- The digits with which `m * 2 ^ e` is written, as a whole number `c` and an exponent `k` for
`c * 10 ^ k`: at most the given number of digits, and as few as are read as the number. -/
def shortestFrom (m : Nat) (e : Int) (size : Int) : Nat → Nat → Nat × Int
  | 0, n => ((floorAt m e (size - n)).1, size - n)
  | fuel + 1, n =>
    let k := size - n
    let (c, upper) := floorAt m e k
    let (first, second) := if upper then (c + 1, c) else (c, c + 1)
    if readsAs m e first k then (first, k)
    else if readsAs m e second k then (second, k)
    else shortestFrom m e size fuel (n + 1)

/-- The fewest digits that are read as `m * 2 ^ e`; 17 always are. -/
def shortest (m : Nat) (e : Int) : Nat × Int := shortestFrom m e (magnitude m e) 17 1

/-- `c * 10 ^ k` without an exponent, with a point and at least one digit after it. -/
def positional (c : Nat) (k : Int) : Text :=
  let all := Nat.toDigits 10 c
  let ds := (all.reverse.dropWhile (· = '0')).reverse
  let k := k + (all.length - ds.length : Nat)
  let before := (ds.length : Int) + k
  if before ≤ 0 then ['0', '.'] ++ List.replicate (-before).toNat '0' ++ ds
  else if 0 ≤ k then ds ++ List.replicate k.toNat '0' ++ ['.', '0']
  else ds.take before.toNat ++ ['.'] ++ ds.drop before.toNat

/-- A number as text. -/
def text : Binary64 → Text
  | .nan => "NaN".toList
  | .infinite negative => (if negative then ['-'] else []) ++ "inf".toList
  | .finite negative m e =>
    (if negative then ['-'] else []) ++
      if m = 0 then "0.0".toList else positional (shortest m e).1 (shortest m e).2

end Binary64

end RecordLog
