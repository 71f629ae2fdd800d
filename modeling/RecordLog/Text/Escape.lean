import RecordLog.Text.Utf8

/-!
# Byte strings in ASCII

A byte string is shown in printable ASCII: a printable byte as its character, with a backslash
before quotes and backslashes, tab, carriage return and line feed by a letter, and any other byte
by two hexadecimal digits.

## Main definitions

* `RecordLog.Escape.byte` and `RecordLog.Escape.bytes`.
-/

namespace RecordLog.Escape

/-- A byte in ASCII. -/
def byte (b : UInt8) : Text :=
  if b = 0x09 then ['\\', 't']
  else if b = 0x0D then ['\\', 'r']
  else if b = 0x0A then ['\\', 'n']
  else if b = 0x22 ∨ b = 0x27 ∨ b = 0x5C then ['\\', Char.ofNat b.toNat]
  else if 0x20 ≤ b ∧ b < 0x7F then [Char.ofNat b.toNat]
  else ['\\', 'x', Nat.digitChar (b.toNat / 16), Nat.digitChar (b.toNat % 16)]

/-- A byte string in ASCII. -/
def bytes (b : Bytes) : Text := b.flatMap byte

@[simp] theorem bytes_nil : bytes [] = [] := rfl

@[simp] theorem bytes_cons (b : UInt8) (r : Bytes) : bytes (b :: r) = byte b ++ bytes r := rfl

end RecordLog.Escape
