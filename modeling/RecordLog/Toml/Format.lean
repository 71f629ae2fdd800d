import RecordLog.Options.Format
import RecordLog.Toml.Document
import RecordLog.Toml.Outline

/-!
# A format

Documents of keys and values, with tables in them, are one format in which options can be kept. Its
tables hand over their entries in the order of the keys, and not in that of the lines. Numbers that
cannot be read are wrong under whatever key they stand. What is said of a text that is no document,
or of such a number, is left open.

## Main definitions

* `RecordLog.Toml.inOrder` and `RecordLog.Toml.read`.
* `RecordLog.Toml.format`.
-/

namespace RecordLog.Toml

open Options (Setting)

/-! ### Entries in order -/

section InOrder

variable {α : Type} (key : α → Text)

/-- Things in the order of their keys, with one more. -/
def place (x : α) : List α → List α
  | [] => [x]
  | y :: ys => if key x < key y then x :: y :: ys else y :: place x ys

/-- Things in the order of their keys. -/
def inOrder : List α → List α
  | [] => []
  | x :: xs => place key x (inOrder xs)

end InOrder

/-! ### Values of a kind -/

/-- What is said of a value that is not of the kind that is expected. -/
def wrongType (seen : Outline) (k : Setting.Kind) : Text :=
  "invalid type: ".toList ++ seen.text ++ ", expected ".toList ++ k.name.toList

/-- What is said of a number of 64 bits that is not in the range expected. -/
def outOfRange (n : Int) (k : Setting.Kind) : Text :=
  "invalid value: integer `".toList ++ integerText n ++ "`, expected ".toList ++ k.name.toList

/-- A natural number below a bound, where a kind of numbers is expected. -/
def natural (bound : Nat) (k : Setting.Kind) : Outline → Except Text Nat
  | .integer n =>
    if 0 ≤ n ∧ n < bound then .ok n.toNat
    else .error (if isWord64 n then outOfRange n k else wrongType (.integer n) k)
  | seen => .error (wrongType seen k)

/-- A truth value, where one is expected. -/
def truth : Outline → Except Text Bool
  | .boolean b => .ok b
  | seen => .error (wrongType seen .flag)

/-- The outline of a value as one of a kind. -/
def readOutline (seen : Outline) : (k : Setting.Kind) → Except Text k.Carrier
  | .count => (natural UInt64.size .count seen).map .ofNat
  | .mode => (natural UInt32.size .mode seen).map .ofNat
  | .flag => truth seen

/-- A value as one of a kind. -/
def read (k : Setting.Kind) (v : Value) : Except Text k.Carrier :=
  match v.outline? with
  | none => .error []
  | some seen => readOutline seen k

/-! ### The format -/

/-- The entries of a document, in the order of their keys. -/
def entries (t : Text) : Except Text Entries :=
  match document? t with
  | none => .error []
  | some es => .ok (inOrder Prod.fst es)

/-- A single value as it is written. -/
def scalarText : Format.Scalar → Text
  | .natural n => Nat.toDigits 10 n
  | .truth b => booleanText b

/-- The format of documents of keys and values. -/
def format : Format where
  Value := Value
  entries := entries
  read := read
  skip v := if v.holdsUnreadable then .error [] else .ok ()
  repeated k := "duplicate field `".toList ++ k ++ ['`']
  write es := .ok (es.flatMap fun e => e.1 ++ " = ".toList ++ scalarText e.2 ++ ['\n'])

end RecordLog.Toml
