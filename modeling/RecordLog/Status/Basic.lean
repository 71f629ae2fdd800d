import RecordLog.Bytes.Basic
import RecordLog.Status.Code

/-!
# Statuses

A status reports the outcome of an operation: success, or a failure with a code other than `ok`
and a message. Messages are byte strings, since the names in them need not be texts.

## Main definitions

* `RecordLog.Failure` and `RecordLog.Status`.
* `RecordLog.Status.new`, the status with a code and one or two messages.
* `RecordLog.Status.code`, `RecordLog.Status.message`.
* `RecordLog.Status.toExcept` and `RecordLog.Status.ofExcept`.
-/

namespace RecordLog

/-- A failure: a code other than `ok`, and a message. -/
structure Failure where
  code : Code
  message : Bytes
  code_ne_ok : code ≠ .ok := by decide
  deriving DecidableEq

/-- The outcome of an operation. -/
inductive Status
  | ok
  | failed (f : Failure)
  deriving DecidableEq

namespace Status

/-- A message followed by a second one, with a colon and a space between them; a second message
that is empty adds nothing. -/
def joined (msg msg₂ : Bytes) : Bytes :=
  if msg₂ = [] then msg else msg ++ Bytes.ofAscii ": " ++ msg₂

/-- The status with a given code and messages. Success has no message. -/
def new (c : Code) (msg msg₂ : Bytes) : Status :=
  if h : c = .ok then .ok else .failed ⟨c, joined msg msg₂, h⟩

/-- The code of a status. -/
def code : Status → Code
  | .ok => .ok
  | .failed f => f.code

/-- The message of a status, empty for success. -/
def message : Status → Bytes
  | .ok => []
  | .failed f => f.message

/-- Whether a status has a given code. -/
def is (c : Code) (s : Status) : Bool := s.code = c

/-- A status as a result without a value. -/
def toExcept : Status → Except Failure Unit
  | .ok => .ok ()
  | .failed f => .error f

/-- The status of a result without a value. -/
def ofExcept : Except Failure Unit → Status
  | .ok () => .ok
  | .error f => .failed f

@[simp] theorem ofExcept_toExcept (s : Status) : ofExcept s.toExcept = s := by cases s <;> rfl

@[simp] theorem toExcept_ofExcept (r : Except Failure Unit) : (ofExcept r).toExcept = r := by
  rcases r with _ | ⟨⟨⟩⟩ <;> rfl

@[simp] theorem new_ok (msg msg₂ : Bytes) : new .ok msg msg₂ = .ok := rfl

theorem code_new (c : Code) (msg msg₂ : Bytes) : (new c msg msg₂).code = c := by
  unfold new
  split <;> simp_all [code]

theorem message_new {c : Code} (h : c ≠ .ok) (msg msg₂ : Bytes) :
    (new c msg msg₂).message = joined msg msg₂ := by
  simp [new, h, message]

end Status

end RecordLog
