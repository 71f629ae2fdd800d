import RecordLog.Text.Utf8

/-!
# Reading documents

A reader takes a piece from the front of a text and gives what it says together with the text that
is left, or fails. The readers here deal with what stands between the pieces: blanks, comments and
the ends of lines.

## Main definitions

* `RecordLog.Toml.Reader`, and `RecordLog.Toml.Reader.repeated` for pieces one after the other.
* `RecordLog.Toml.skipBlanks`, `RecordLog.Toml.lineEnd?`, `RecordLog.Toml.skipGap`.

## Main results

* `RecordLog.Toml.Reader.repeated_of_last`, `RecordLog.Toml.Reader.repeated_of_more` — what one
  piece contributes.
-/

namespace RecordLog.Toml

/-- Readers of pieces. -/
abbrev Reader (α : Type) := Text → Option (α × Text)

/-- Reads pieces one after the other, each of which changes what is known and tells whether another
one follows. A piece after which another one follows has at least one character. -/
def Reader.repeated {σ : Type} (piece : σ → Reader (σ × Bool)) (s : σ) (t : Text) :
    Option (σ × Text) :=
  match piece s t with
  | none => none
  | some ((s, false), rest) => some (s, rest)
  | some ((s, true), rest) =>
    if rest.length < t.length then repeated piece s rest else none
termination_by t.length

theorem Reader.repeated_of_last {σ : Type} {piece : σ → Reader (σ × Bool)} {s s' : σ}
    {t rest : Text} (h : piece s t = some ((s', false), rest)) :
    repeated piece s t = some (s', rest) := by
  rw [repeated, h]

theorem Reader.repeated_of_more {σ : Type} {piece : σ → Reader (σ × Bool)} {s s' : σ}
    {t rest : Text} (h : piece s t = some ((s', true), rest)) (hlt : rest.length < t.length) :
    repeated piece s t = repeated piece s' rest := by
  rw [repeated, h]
  exact if_pos hlt

/-- Whether a character may stand in comments and between quotes as it is: a tab or no ASCII
control character. -/
def isPlain (c : Char) : Bool := c = '\t' || (0x20 ≤ c.toNat && c.toNat ≠ 0x7F)

/-- Whether a character separates within a line. -/
def isBlank (c : Char) : Bool := c = ' ' || c = '\t'

/-- The text after the blanks at its front. -/
def skipBlanks (t : Text) : Text := t.dropWhile isBlank

/-- The text after the line end at its front: a line feed, with a carriage return before it or
not. -/
def newline? : Text → Option Text
  | '\n' :: rest => some rest
  | '\r' :: '\n' :: rest => some rest
  | _ => none

/-- The text after the comment at its front, if there is one. -/
def skipComment : Text → Text
  | '#' :: rest => rest.dropWhile isPlain
  | t => t

/-- The text after what may end a line: blanks, a comment, and then a line end unless the text is
at its end. -/
def lineEnd? (t : Text) : Option Text :=
  match skipComment (skipBlanks t) with
  | [] => some []
  | t => newline? t

/-- The text after blanks, line ends and comments, of which the first may already have begun. -/
def skipGapFrom : Bool → Text → Text
  | _, [] => []
  | _, '\n' :: rest => skipGapFrom false rest
  | _, '\r' :: '\n' :: rest => skipGapFrom false rest
  | true, c :: rest => if isPlain c then skipGapFrom true rest else c :: rest
  | false, c :: rest =>
    if isBlank c then skipGapFrom false rest
    else if c = '#' then skipGapFrom true rest
    else c :: rest

/-- The text after blanks, line ends and comments. -/
def skipGap (t : Text) : Text := skipGapFrom false t

end RecordLog.Toml
