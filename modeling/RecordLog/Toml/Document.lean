import RecordLog.Toml.Nested

/-!
# Documents

A document is made of lines: blank ones, headers, and keys with their values, which belong to the
table of the header before them. Each may end in a comment.

## Main definitions

* `RecordLog.Toml.Draft`, a document as far as it has been read.
* `RecordLog.Toml.document?`.
-/

namespace RecordLog.Toml

/-- What has been read of a document, and the keys of the header that was read last. -/
structure Draft where
  entries : Entries
  header : List Text

namespace Draft

/-- Nothing has been read. -/
def empty : Draft := ⟨[], []⟩

/-- Reads a header, from behind its opening brackets to behind its closing ones. -/
def header? (closing : Text) (act : KeyPath → Entries → Option Entries) (d : Draft) :
    Reader Draft := fun t => do
  let (p, t) ← keyPath? (skipBlanks t)
  let es ← act p d.entries
  if t.take closing.length = closing then return (⟨es, p.keys⟩, t.drop closing.length) else none

/-- Reads a key and its value. -/
def assignment? (d : Draft) : Reader Draft := fun t => do
  let ((p, v), t) ← Toml.assignment? skipBlanks (value? maxDepth) t
  let es ← d.entries.alter .header (·.assign p v) d.header
  return (⟨es, d.header⟩, t)

/-- Reads a header, or a key and its value. -/
def statement? (d : Draft) : Reader Draft
  | '[' :: '[' :: t => header? [']', ']'] (fun p es => es.addTable p) d t
  | '[' :: t => header? [']'] (fun p es => es.openTable p) d t
  | t => assignment? d t

/-- Reads a line, and tells whether there is text after it. -/
def line? (d : Draft) : Reader (Draft × Bool) := fun t =>
  match lineEnd? t with
  | some rest => some ((d, !rest.isEmpty), rest)
  | none => do
    let (d, t) ← d.statement? (skipBlanks t)
    let rest ← lineEnd? t
    return ((d, !rest.isEmpty), rest)

end Draft

/-- A text without the byte order mark at its front. -/
def skipMark : Text → Text
  | '\uFEFF' :: t => t
  | t => t

/-- The entries of a document. -/
def document? (t : Text) : Option Entries :=
  match Reader.repeated Draft.line? .empty (skipMark t) with
  | some (d, []) => some d.entries
  | _ => none

end RecordLog.Toml
