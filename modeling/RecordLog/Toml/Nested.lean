import RecordLog.Toml.Scalar
import RecordLog.Toml.Table

/-!
# Values that hold values

Arrays stand between brackets and closed tables between braces, with commas between the elements
and perhaps one behind the last. Line ends and comments may stand around the elements, and in a
closed table also around an equals sign.

## Main definitions

* `RecordLog.Toml.value?`, a value nested to a given depth at most.
* `RecordLog.Toml.assignment?`, a key and its value.
-/

namespace RecordLog.Toml

/-- What follows an element: a comma and perhaps further elements, or the closing bracket. -/
def separator? (close : Char) : Reader Bool := fun t =>
  match skipGap t with
  | c :: t => if c = ',' then some (true, t) else if c = close then some (false, t) else none
  | [] => none

/-- The text after the closing bracket, if it follows. -/
def closing? (close : Char) (t : Text) : Option Text :=
  match skipGap t with
  | c :: t => if c = close then some t else none
  | [] => none

/-- A key path, an equals sign and a value, of which the sign and the value come after what is to
be skipped. -/
def assignment? (skip : Text → Text) (value : Reader Value) : Reader (KeyPath × Value) := fun t =>
  match keyPath? t with
  | none => none
  | some (p, t) =>
    match skip t with
    | '=' :: t => (value (skip t)).map fun (v, rest) => ((p, v), rest)
    | _ => none

/-- An element of an array, of which the elements before are given from the last to the first, or
its end. -/
def element? (value : Reader Value) (vs : List Value) : Reader (List Value × Bool) := fun t =>
  match closing? ']' t with
  | some rest => some ((vs, false), rest)
  | none => do
    let (v, t) ← value (skipGap t)
    let (more, t) ← separator? ']' t
    return ((v :: vs, more), t)

/-- An entry of a closed table, of which the entries before are given, or its end. -/
def pair? (value : Reader Value) (es : Entries) : Reader (Entries × Bool) := fun t =>
  match closing? '\x7d' t with
  | some rest => some ((es, false), rest)
  | none => do
    let ((p, v), t) ← assignment? skipGap value (skipGap t)
    let es ← es.assign p v
    let (more, t) ← separator? '\x7d' t
    return ((es, more), t)

/-- A value, in which brackets and braces are nested to a given depth at most. -/
def value? : Nat → Reader Value
  | 0, t => scalar? t
  | n + 1, t =>
    match t with
    | c :: rest =>
      if c = '[' then
        (Reader.repeated (element? (value? n)) [] rest).map fun (vs, rest) =>
          (.array vs.reverse, rest)
      else if c = '\x7b' then
        (Reader.repeated (pair? (value? n)) [] rest).map fun (es, rest) =>
          (.table .closed es, rest)
      else
        scalar? t
    | [] => none

end RecordLog.Toml
