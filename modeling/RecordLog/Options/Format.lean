import RecordLog.Options.Setting

/-!
# Formats of documents

Options are kept in documents. How a document is read and written is not for options to say: this
is what a *format* does, and options can be used with any. A format reads a document as a whole, and
then hands over what is given to each key, in an order of its own. It tells whether a value is of a
kind, and finds the words for what is wrong.

## Main definitions

* `RecordLog.Format`.
* `RecordLog.Format.Scalar`, what is written to a document.
-/

namespace RecordLog

/-- Single values that are written to documents. -/
inductive Format.Scalar
  | natural (n : Nat)
  | truth (b : Bool)
  deriving DecidableEq, Repr

/-- What reads and writes documents. -/
structure Format where
  /-- Values as they come from a document. -/
  Value : Type
  /-- The values under the keys of a document, in the order in which they are handed over, or what
  is said of a text that is no document. -/
  entries : Text → Except Text (List (Text × Value))
  /-- A value as one of a kind, or what is said of one that is not of this kind. -/
  read (k : Options.Setting.Kind) : Value → Except Text k.Carrier
  /-- Passes over a value, or tells what is wrong with it even so. -/
  skip : Value → Except Text Unit
  /-- What is said of a key that is handed over again. -/
  repeated : Text → Text
  /-- The document that gives values to keys, or what is said if there is none. -/
  write : List (Text × Format.Scalar) → Except Text Text

/-- A value of a kind as it is written. -/
def Options.Setting.Kind.scalar : (k : Options.Setting.Kind) → k.Carrier → Format.Scalar
  | .count, n => .natural n.toNat
  | .mode, n => .natural n.toNat
  | .flag, b => .truth b

end RecordLog
