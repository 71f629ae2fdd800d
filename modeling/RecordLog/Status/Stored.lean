import RecordLog.Status.Block

/-!
# Kept statuses

A status is kept as its block alone, and success without one. The code and the message of a kept
status are read from its block, so that they are what was stored only if the block is one: a number
of no code is read as that of `ioError`, and bytes that are missing as none. Kept statuses are equal
if their blocks are.

## Main definitions

* `RecordLog.Status.Stored`, made by `Stored.new` from a code and messages and by
  `Stored.ofEncoded` from a block.
* `RecordLog.Status.Stored.code`, `Stored.message` and `Stored.is`, what is read from it.
* `RecordLog.Status.Stored.status` and `RecordLog.Status.stored`, between kept statuses and others.
-/

namespace RecordLog.Status

/-- A status as it is kept: a failure as its block, success without one. -/
structure Stored where
  block : Option Bytes
  deriving DecidableEq, Repr

/-- A status as it is kept. -/
def stored (s : Status) : Stored := ⟨s.encoded⟩

/-- How many bytes a message and a second one have together. -/
def joinedLength (msg msg₂ : Bytes) : Nat :=
  msg.length + if msg₂ = [] then 0 else (Bytes.ofAscii ": ").length + msg₂.length

theorem length_joined (msg msg₂ : Bytes) : (joined msg msg₂).length = joinedLength msg msg₂ := by
  unfold joined joinedLength
  split <;> simp

namespace Stored

/-! ### Making -/

/-- Success. -/
def ok : Stored := ⟨none⟩

/-- The status with a given code and messages, if a block can declare their length. Success has no
message. -/
def new (c : Code) (msg msg₂ : Bytes) : Except MessageTooLong Stored :=
  if c = .ok then
    .ok ok
  else
    let size := joinedLength msg msg₂
    if size < UInt32.size then
      .ok ⟨some (Fixed.toBytes 4 size ++ c.number :: joined msg msg₂)⟩
    else
      .error ⟨size⟩

/-- The status stored in a block. -/
def ofEncoded : Bytes → Except BlockError Stored
  | a :: b :: c :: d :: number :: message =>
    let declared := Fixed.ofBytes [a, b, c, d]
    if declared ≠ message.length then
      .error (.lengthMismatch declared message.length)
    else
      match Code.ofNumber number with
      | .error e => .error e
      | .ok .ok => .error .okBlock
      | .ok _ => .ok ⟨some (a :: b :: c :: d :: number :: message)⟩
  | short => .error (.truncatedHeader short.length)

/-- A status that is given the value of another one, which is left alone if it has that already. -/
def assign (s source : Stored) : Stored := if s ≠ source then source else s

/-! ### Reading -/

/-- The block of a status, for success none. -/
def encoded (s : Stored) : Option Bytes := s.block

/-- The code of a status, by the number in its block. -/
def code (s : Stored) : Code :=
  match s.block with
  | none => .ok
  | some b => (b[4]?.bind Code.ofNumber?).getD .ioError

/-- The number of the code of a status. -/
def number (s : Stored) : UInt8 := s.code.number

/-- The message of a status, empty for success. -/
def message (s : Stored) : Bytes :=
  match s.block with
  | none => []
  | some b => b.drop blockHeader

/-- Whether a status has a given code. Success is known by its having no block. -/
def is (c : Code) (s : Stored) : Bool :=
  match c with
  | .ok => s.block.isNone
  | c => s.code = c

/-- A status as a result without a value. -/
def toExcept (s : Stored) : Except Stored Unit := if s.is .ok then .ok () else .error s

/-- The status of a result without a value. -/
def ofExcept : Except Stored Unit → Stored
  | .ok () => ok
  | .error s => s

/-- The status that is kept. -/
def status (s : Stored) : Status :=
  if h : s.code = .ok then .ok else .failed ⟨s.code, s.message, h⟩

theorem assign_eq (s source : Stored) : s.assign source = source := by
  unfold assign
  split <;> simp_all

end Stored

end RecordLog.Status
