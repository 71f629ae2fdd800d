import RecordLog.Status.Stored

/-!
# Statuses in slots

Slots keep statuses that are made, read from blocks, copied, moved and passed on as results. At
first each of them keeps success. Every step has a slot that it is about, which keeps its outcome
afterwards.

## Main definitions

* `RecordLog.Status.Slots`.
* `RecordLog.Status.Slots.Step` and `RecordLog.Status.Slots.Answer`.
* `RecordLog.Status.Slots.step` and `RecordLog.Status.Slots.run`.
-/

namespace RecordLog.Status

/-- A number of kept statuses. -/
abbrev Slots (n : Nat) := Vector Stored n

namespace Slots

variable {n : Nat}

/-- Success in every slot. -/
def initial : Slots n := Vector.replicate n .ok

/-- What can be done to the slot that a step is about. -/
inductive Step (n : Nat)
  /-- Store success. -/
  | ok
  /-- Leave it as it is. -/
  | keep
  /-- Store the status with a code and messages, if they are not too long. -/
  | new (c : Code) (msg msg₂ : Bytes)
  /-- Store the status read from a block, if it is one. -/
  | decode (block : Bytes)
  /-- Store the status read from the block of another slot. -/
  | reparse (source : Fin n)
  /-- Store a copy of the status of another slot. -/
  | copy (source : Fin n)
  /-- Give it the value of another slot. -/
  | assign (source : Fin n)
  /-- Take the status of another slot and leave success there. -/
  | move (source : Fin n)
  /-- Compare it with another slot. -/
  | eq (source : Fin n)
  /-- Store the status of what it is as a result. -/
  | result

/-- What a step answers. -/
inductive Answer
  | nothing
  | tooLong (e : MessageTooLong)
  | refused (e : BlockError)
  | noBlock
  | equal (b : Bool)
  | succeeded (b : Bool)

/-- The slots after a step about slot `i`, and its answer. -/
def step (slots : Slots n) (i : Fin n) : Step n → Slots n × Answer
  | .ok => (slots.set i .ok, .nothing)
  | .keep => (slots, .nothing)
  | .new c msg msg₂ =>
    match Stored.new c msg msg₂ with
    | .ok s => (slots.set i s, .nothing)
    | .error e => (slots, .tooLong e)
  | .decode block => store block
  | .reparse source =>
    match slots[source].encoded with
    | none => (slots, .noBlock)
    | some block => store block
  | .copy source => (slots.set i slots[source], .nothing)
  | .assign source => (slots.set i (slots[i].assign slots[source]), .nothing)
  | .move source => ((slots.set source .ok).set i slots[source], .nothing)
  | .eq source => (slots, .equal (slots[i] = slots[source]))
  | .result => (slots.set i (.ofExcept slots[i].toExcept), .succeeded (slots[i].is .ok))
where
  /-- Stores the status read from a block, if it is one. -/
  store (block : Bytes) : Slots n × Answer :=
    match Stored.ofEncoded block with
    | .ok s => (slots.set i s, .nothing)
    | .error e => (slots, .refused e)

/-- The slots after steps, each about a slot of its own. -/
def run (slots : Slots n) : List (Fin n × Step n) → Slots n
  | [] => slots
  | (i, s) :: rest => run (step slots i s).1 rest

/-- What steps answer, and the status of the slot that each is about after it. -/
def answers (slots : Slots n) : List (Fin n × Step n) → List (Answer × Stored)
  | [] => []
  | (i, s) :: rest =>
    let (slots, answer) := step slots i s
    (answer, slots[i]) :: answers slots rest

end Slots

end RecordLog.Status
