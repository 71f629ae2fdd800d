import RecordLog.Bytes.Basic

/-!
# UTF-8

A character is written as one to four bytes: the first tells how many follow, and each byte that
follows holds six bits. Reading is total: bytes that begin no character are shown as the
replacement character U+FFFD, one for each longest piece that could still have been continued to
a character. A byte string is valid exactly if writing what it reads as gives it back.

## Main definitions

* `RecordLog.Text`, texts as lists of characters.
* `RecordLog.Utf8.encode` and `RecordLog.Utf8.decodeLossy`.
* `RecordLog.Utf8.decode?`, the text of a valid byte string.
-/

namespace RecordLog

/-- Texts, as lists of characters. -/
abbrev Text := List Char

namespace Utf8

/-! ### Writing -/

/-- The bytes of a character. -/
def encodeChar (c : Char) : Bytes :=
  let n := c.toNat
  if n < 0x80 then
    [UInt8.ofNat n]
  else if n < 0x800 then
    [UInt8.ofNat (0xC0 + n / 0x40), UInt8.ofNat (0x80 + n % 0x40)]
  else if n < 0x10000 then
    [UInt8.ofNat (0xE0 + n / 0x1000), UInt8.ofNat (0x80 + n / 0x40 % 0x40),
      UInt8.ofNat (0x80 + n % 0x40)]
  else
    [UInt8.ofNat (0xF0 + n / 0x40000), UInt8.ofNat (0x80 + n / 0x1000 % 0x40),
      UInt8.ofNat (0x80 + n / 0x40 % 0x40), UInt8.ofNat (0x80 + n % 0x40)]

/-- The bytes of a text. -/
def encode (t : Text) : Bytes := t.flatMap encodeChar

@[simp] theorem encode_nil : encode [] = [] := rfl

@[simp] theorem encode_cons (c : Char) (t : Text) : encode (c :: t) = encodeChar c ++ encode t :=
  rfl

theorem encode_append (s t : Text) : encode (s ++ t) = encode s ++ encode t :=
  List.flatMap_append

/-! ### Reading -/

/-- A character of which some bytes have been read: the value of its bits so far, how many bytes
are to follow, and the least and the greatest byte that may come next. -/
structure Unfinished where
  bits : Nat
  left : Nat
  low : UInt8
  high : UInt8
  deriving DecidableEq, Repr

/-- Shown in place of bytes that begin no character. -/
def replacement : Char := '\uFFFD'

/-- What a byte does between characters: the characters that are complete after it, and the
character that it begins. After `E0` and `F0` the low second bytes would write what fewer bytes
can, after `ED` the high ones would write surrogates, and after `F4` they would leave the range of
characters. -/
def first (b : UInt8) : Text × Option Unfinished :=
  if b < 0x80 then ([Char.ofNat b.toNat], none)
  else if b < 0xC2 then ([replacement], none)
  else if b < 0xE0 then ([], some ⟨b.toNat % 0x20, 1, 0x80, 0xBF⟩)
  else if b = 0xE0 then ([], some ⟨0, 2, 0xA0, 0xBF⟩)
  else if b = 0xED then ([], some ⟨0xD, 2, 0x80, 0x9F⟩)
  else if b < 0xF0 then ([], some ⟨b.toNat % 0x10, 2, 0x80, 0xBF⟩)
  else if b = 0xF0 then ([], some ⟨0, 3, 0x90, 0xBF⟩)
  else if b < 0xF4 then ([], some ⟨b.toNat % 0x08, 3, 0x80, 0xBF⟩)
  else if b = 0xF4 then ([], some ⟨4, 3, 0x80, 0x8F⟩)
  else ([replacement], none)

/-- What a byte does within a character. A byte that cannot continue it leaves a replacement
character and begins anew. -/
def next (p : Unfinished) (b : UInt8) : Text × Option Unfinished :=
  if p.low ≤ b ∧ b ≤ p.high then
    let bits := p.bits * 0x40 + b.toNat % 0x40
    if p.left = 1 then ([Char.ofNat bits], none) else ([], some ⟨bits, p.left - 1, 0x80, 0xBF⟩)
  else
    (replacement :: (first b).1, (first b).2)

/-- What a byte does, within a character or between two. -/
def step : Option Unfinished → UInt8 → Text × Option Unfinished
  | none, b => first b
  | some p, b => next p b

/-- The text of bytes that come after an unfinished character, if there is one. -/
def decodeFrom : Option Unfinished → Bytes → Text
  | none, [] => []
  | some _, [] => [replacement]
  | s, b :: r => (step s b).1 ++ decodeFrom (step s b).2 r

/-- The text of a byte string, with a replacement character for each longest piece that begins a
character without completing it, and for each byte that begins none. -/
def decodeLossy (b : Bytes) : Text := decodeFrom none b

/-- The text of a byte string that is valid, which is one that its text gives back. -/
def decode? (b : Bytes) : Option Text :=
  if encode (decodeLossy b) = b then some (decodeLossy b) else none

@[simp] theorem decodeLossy_nil : decodeLossy [] = [] := rfl

theorem encode_of_decode?_eq_some {b : Bytes} {t : Text} (h : decode? b = some t) :
    encode t = b := by
  unfold decode? at h
  split at h <;> simp_all

end Utf8

end RecordLog
