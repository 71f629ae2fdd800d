import RecordLog.Bytes.Order
import RecordLog.Text.Escape

/-!
# Scripts on views

A script narrows a view step by step, asks about it, and can keep it and come back to what it
kept. A fault is the answer of its step and changes nothing.

## Main definitions

* `RecordLog.View.text` and `RecordLog.View.debug`, a view as text and in diagnostics.
* `RecordLog.View.Script`, with its steps, their answers and `View.Script.run`.
-/

namespace RecordLog.View

/-- The bytes of a view as text, with replacement characters for what is no text. -/
def text (v : View) : String := String.ofList (Utf8.decodeLossy v.bytes)

/-- A view in diagnostics: its bytes in ASCII between quotes. -/
def debugText (v : View) : Text := 'b' :: '"' :: Escape.bytes v.bytes ++ ['"']

/-- A view in diagnostics. -/
def debug (v : View) : String := String.ofList v.debugText

/-- A view, and one that was kept. -/
structure Script where
  current : View
  kept : View
  deriving DecidableEq, Repr

namespace Script

/-- A view, which is also the one that is kept at first. -/
def start (v : View) : Script := ⟨v, v⟩

/-- What a script does. -/
inductive Step
  | byte (n : Int64)
  | dropFirst (n : Nat)
  | dropLast (n : Nat)
  | tail (n : Nat)
  | clear
  | save
  | restore
  | bytes
  | text
  | debug
  | startsWith (w : View)
  | endsWith (w : View)
  | compare (w : View)
  deriving DecidableEq, Repr

/-- How a view compares with another, by each way of asking: the order itself, as a total and as a
partial one, and the relations. -/
structure Comparison where
  order : Ordering
  total : Ordering
  partially : Option Ordering
  eq : Bool
  ne : Bool
  lt : Bool
  le : Bool
  gt : Bool
  ge : Bool
  deriving DecidableEq, Repr

/-- What a step answers. -/
inductive Answer
  | nothing
  | byte (b : UInt8)
  | bytes (b : Bytes)
  | text (t : String)
  | flag (b : Bool)
  | comparison (c : Comparison)
  deriving DecidableEq, Repr

/-- How a view compares with another. Whether two views are equal is told from their bytes, the
other relations from the partial order. -/
def comparison (v w : View) : Comparison where
  order := v.compare w
  total := Ord.compare v w
  partially := v.partialCompare w
  eq := v.bytes == w.bytes
  ne := v.bytes != w.bytes
  lt := (v.partialCompare w).any Ordering.isLT
  le := (v.partialCompare w).any Ordering.isLE
  gt := (v.partialCompare w).any Ordering.isGT
  ge := (v.partialCompare w).any Ordering.isGE

/-- What a step of a script answers, or the request that the view cannot meet, and the script
after it. -/
def step (s : Script) : Step → Except Fault Answer × Script
  | .byte n => (s.current.byteAt n |>.map .byte, s)
  | .dropFirst n => narrow (s.current.dropFirst n)
  | .dropLast n => narrow (s.current.dropLast n)
  | .tail n => (s.current.tail n |>.map .bytes, s)
  | .clear => (.ok .nothing, { s with current := View.empty })
  | .save => (.ok .nothing, { s with kept := s.current })
  | .restore => (.ok .nothing, { s with current := s.kept })
  | .bytes => (.ok (.bytes s.current.bytes), s)
  | .text => (.ok (.text s.current.text), s)
  | .debug => (.ok (.text s.current.debug), s)
  | .startsWith w => (.ok (.flag (s.current.startsWith w)), s)
  | .endsWith w => (.ok (.flag (s.current.endsWith w)), s)
  | .compare w => (.ok (.comparison (comparison s.current w)), s)
where
  /-- Goes on with a narrowed view, unless there is a fault. -/
  narrow : Except Fault View → Except Fault Answer × Script
    | .ok v => (.ok .nothing, { s with current := v })
    | .error e => (.error e, s)

/-- What the steps of a script answer, each with the view after it. -/
def run (s : Script) : List Step → List (Except Fault Answer × View)
  | [] => []
  | a :: rest =>
    let (r, s) := s.step a
    (r, s.current) :: run s rest

end Script

end RecordLog.View
