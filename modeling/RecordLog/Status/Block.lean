import RecordLog.Coding.Fixed
import RecordLog.Status.Basic

/-!
# Stored statuses

A failure is stored as a block: the length of its message in four bytes, the least significant
first, the number of its code in one byte, and the message. Success has no block.

## Main definitions

* `RecordLog.Failure.block` and `RecordLog.Status.encoded`.
* `RecordLog.BlockError`, the ways in which a byte string fails to be a block.
* `RecordLog.MessageTooLong`, the way in which a failure fails to have one.
-/

namespace RecordLog

/-- How many bytes of a block come before the message. -/
def blockHeader : Nat := 5

/-- The block of a failure. -/
def Failure.block (f : Failure) : Bytes :=
  Fixed.toBytes 4 f.message.length ++ f.code.number :: f.message

/-- The ways in which a byte string fails to be a block: too few bytes for what comes before the
message, a message of another length than declared, a number of no code, the number of success. -/
inductive BlockError
  | truncatedHeader (actual : Nat)
  | lengthMismatch (declared actual : Nat)
  | unknownCode (number : UInt8)
  | okBlock
  deriving DecidableEq, Repr

/-- What is said about a byte string that is no block. -/
def BlockError.message : BlockError → String
  | .truncatedHeader actual =>
    s!"status block truncated: need at least 5 bytes, have {actual}"
  | .lengthMismatch declared actual =>
    s!"status block length mismatch: header declares {declared} message bytes, found {actual}"
  | .unknownCode number => s!"unknown status code {number}"
  | .okBlock => "OK status has no encoded block"

/-- A message with more bytes than a block can declare. -/
structure MessageTooLong where
  size : Nat
  deriving DecidableEq, Repr

/-- What is said about a message that is too long. -/
def MessageTooLong.message (e : MessageTooLong) : String :=
  s!"status message of {e.size} bytes exceeds u32::MAX"

/-- The code with a given number, or what is wrong with the number. -/
def Code.ofNumber (n : UInt8) : Except BlockError Code :=
  match Code.ofNumber? n with
  | some c => .ok c
  | none => .error (.unknownCode n)

namespace Status

/-- The block of a status, for success none. -/
def encoded : Status → Option Bytes
  | .ok => none
  | .failed f => some f.block

end Status

end RecordLog
