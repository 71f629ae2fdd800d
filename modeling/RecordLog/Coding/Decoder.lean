import RecordLog.Coding.Field
import RecordLog.Status.Basic

/-!
# Decoders

A decoder stands in a byte string and takes fields from the front of what remains. What cannot be
taken is a `Decoder.Fault`, which a status reports as corruption, and leaves the decoder where it
was. A length-prefixed value can be entered, which goes on inside it.

## Main definitions

* `RecordLog.Decoder`, with `Decoder.read` and `Decoder.finish`.
* `RecordLog.Decoder.Fault` and `RecordLog.Decoder.Fault.status`.
* `RecordLog.Decoder.Script`, a decoder that a script of steps moves along and back.
-/

namespace RecordLog

/-- A place in a byte string, given by the bytes that remain. -/
structure Decoder where
  remaining : Bytes
  deriving DecidableEq, Repr

namespace Decoder

/-- What a decoder finds wrong with the bytes that remain. -/
inductive Fault
  | truncated (k : Field.Kind) (needed available : Nat)
  | badVarint32
  | badVarint64
  | badLengthPrefixed
  | trailing (n : Nat)
  deriving DecidableEq, Repr

/-- What is said about a fault: what is wrong and, where there is more to say, the amounts. -/
def Fault.messages : Fault → String × String
  | .truncated k needed available =>
    (s!"truncated {kindName k}", s!"need {needed} bytes, have {available}")
  | .badVarint32 => ("bad varint32", "")
  | .badVarint64 => ("bad varint64", "")
  | .badLengthPrefixed => ("bad length-prefixed value", "")
  | .trailing n => ("trailing bytes", toString n)
where
  /-- What a kind of field is called. -/
  kindName : Field.Kind → String
    | .fixed16 => "fixed16"
    | .fixed32 => "fixed32"
    | .fixed64 => "fixed64"
    | .varint32 => "varint32"
    | .varint64 => "varint64"
    | .lengthPrefixed => "length_prefixed"

/-- The status that reports a fault. -/
def Fault.status (e : Fault) : Status :=
  .new .corruption (Bytes.ofAscii e.messages.1) (Bytes.ofAscii e.messages.2)

/-- What is wrong with bytes that do not begin with a field of a given kind. -/
def fault (k : Field.Kind) (available : Nat) : Fault :=
  match k with
  | .fixed16 => .truncated .fixed16 2 available
  | .fixed32 => .truncated .fixed32 4 available
  | .fixed64 => .truncated .fixed64 8 available
  | .varint32 => .badVarint32
  | .varint64 => .badVarint64
  | .lengthPrefixed => .badLengthPrefixed

/-- Takes a field of a given kind, and goes behind it if there is one. -/
def read (d : Decoder) (k : Field.Kind) : Except Fault Field × Decoder :=
  match Field.take? k d.remaining with
  | some (f, rest) => (.ok f, ⟨rest⟩)
  | none => (.error (fault k d.remaining.length), d)

/-- Succeeds if nothing remains. -/
def finish (d : Decoder) : Except Fault Unit :=
  if d.remaining = [] then .ok () else .error (.trailing d.remaining.length)

/-! ### Scripts -/

/-- A decoder, and one that was kept. -/
structure Script where
  current : Decoder
  kept : Decoder
  deriving DecidableEq, Repr

namespace Script

/-- A decoder over a byte string, which is also the one that is kept at first. -/
def start (src : Bytes) : Script := ⟨⟨src⟩, ⟨src⟩⟩

/-- What a script does. -/
inductive Step
  /-- Take a field. -/
  | read (k : Field.Kind)
  /-- Take a length-prefixed value and go on inside it. -/
  | enter
  /-- Ask whether nothing remains. -/
  | finish
  /-- Keep the decoder. -/
  | save
  /-- Go back to the decoder that was kept. -/
  | restore
  deriving DecidableEq, Repr

/-- What a step of a script does, with the field that it takes. -/
def step (s : Script) : Step → Except Fault (Option Field) × Script
  | .read k =>
    match s.current.read k with
    | (.ok f, d) => (.ok (some f), { s with current := d })
    | (.error e, d) => (.error e, { s with current := d })
  | .enter =>
    match s.current.read .lengthPrefixed with
    | (.ok (.lengthPrefixed b), _) => (.ok (some (.lengthPrefixed b)), { s with current := ⟨b⟩ })
    | (.ok f, d) => (.ok (some f), { s with current := d })
    | (.error e, d) => (.error e, { s with current := d })
  | .finish => (s.current.finish.map fun _ => none, s)
  | .save => (.ok none, { s with kept := s.current })
  | .restore => (.ok none, { s with current := s.kept })

/-- What the steps of a script give, each with the decoder after it. -/
def run (s : Script) : List Step → List (Except Fault (Option Field) × Decoder)
  | [] => []
  | a :: rest =>
    let (r, s) := s.step a
    (r, s.current) :: run s rest

end Script

end Decoder

end RecordLog
