import RecordLog.Proofs.Toml.Literal
import RecordLog.Toml.Document

/-!
# Documents of plain lines

A plain line gives an integer or a truth value to a key without quotes. Read as a document, plain
lines give just these values to just these keys, in the order of the lines, if no key is given
twice. Whether the last line has a line feed behind it does not matter.

## Main definitions

* `RecordLog.Toml.Line`, with `Line.text` and `Line.entry`.
* `RecordLog.Toml.Line.document`.

## Main results

* `RecordLog.Toml.Draft.line?_text`: what reading one line adds.
* `RecordLog.Toml.document?_document`: what reading a document of plain lines gives.
-/

namespace RecordLog.Toml

/-- A key that needs no quotes, and the literal that is given to it. -/
structure Line where
  key : Text
  literal : Literal
  key_ne_nil : key ≠ []
  isBare_of_mem : ∀ c ∈ key, isBare c = true

namespace Line

/-- A line as it is written, without its end. -/
def text (l : Line) : Text := l.key ++ " = ".toList ++ l.literal.text

/-- What a line is read as. -/
def entry (l : Line) : Text × Value := (l.key, l.literal.value)

/-- Lines one below the other; the last one has a line feed behind it if so told. -/
def document (ended : Bool) : List Line → Text
  | [] => []
  | [l] => l.text ++ if ended then ['\n'] else []
  | l :: m :: ls => l.text ++ '\n' :: document ended (m :: ls)

end Line

/-- Whether a text is at the end of a line, with another text as what comes after that. -/
inductive IsLineEnd : Text → Text → Prop
  | atEnd : IsLineEnd [] []
  | feed (t : Text) : IsLineEnd ('\n' :: t) t

variable {rest t : Text}

theorem IsLineEnd.lineEnd?_eq (h : IsLineEnd rest t) : lineEnd? rest = some t := by
  cases h <;> rfl

/-! ### Literals in a line -/

theorem spanWord?_append {w : Text} (hw : ∀ c ∈ w, isWordPart c = true) (h : IsLineEnd rest t) :
    spanWord? (w ++ rest) = some (w, rest) := by
  have htake : rest.takeWhile isWordPart = [] := by cases h <;> rfl
  have hdrop : rest.dropWhile isWordPart = rest := by cases h <;> rfl
  have hblank : rest.head?.any isBlank = false := by cases h <;> rfl
  have hpiece : wordPiece? [] (w ++ rest) = some ((w, false), rest) := by
    rw [wordPiece?, List.takeWhile_append_of_pos hw, List.dropWhile_append_of_pos hw, htake, hdrop,
      if_neg fun hand => Bool.false_ne_true (hblank.symm.trans hand.1), List.append_nil,
      List.nil_append]
  exact Reader.repeated_of_last hpiece

theorem Literal.exists_text_eq (l : Literal) :
    ∃ c w, l.text = c :: w ∧ isWordPart c = true ∧ c ≠ '"' ∧ c ≠ '\'' := by
  cases htext : l.text with
  | nil => exact absurd htext l.text_ne_nil
  | cons c w => exact ⟨c, w, rfl, isWordPart_of_mem_text (htext ▸ List.mem_cons_self)⟩

theorem Literal.value?_append {l : Literal} (hl : l.IsReadable) (h : IsLineEnd rest t) (n : Nat) :
    value? (n + 1) (l.text ++ rest) = some (l.value, rest) := by
  have hspan : spanWord? (l.text ++ rest) = some (l.text, rest) :=
    spanWord?_append (fun c hc => (isWordPart_of_mem_text hc).1) h
  have hword := word?_text hl
  obtain ⟨c, w, htext, hpart, hdouble, hsingle⟩ := l.exists_text_eq
  have hbracket : c ≠ '[' := by
    rintro rfl
    exact absurd hpart (by decide)
  have hbrace : c ≠ '\x7b' := by
    rintro rfl
    exact absurd hpart (by decide)
  have hquote : ¬ ((c :: (w ++ rest)).head? = some '"' ∨ (c :: (w ++ rest)).head? = some '\'') := by
    rintro (hq | hq)
    · exact hdouble (Option.some.inj hq)
    · exact hsingle (Option.some.inj hq)
  rw [htext, List.cons_append] at hspan
  rw [htext] at hword
  simp only [htext, List.cons_append, value?, if_neg hbracket, if_neg hbrace, scalar?,
    if_neg hquote, hspan, hword, Option.bind_eq_bind, Option.bind_some]
  rfl

/-! ### Keys in a line -/

theorem skipBlanks_of_not {c : Char} (h : isBlank c = false) (t : Text) :
    skipBlanks (c :: t) = c :: t := by
  rw [skipBlanks, List.dropWhile_cons_of_neg (h ▸ Bool.false_ne_true)]

theorem ne_of_isBare {c d : Char} (hc : isBare c = true) (hd : isBare d = false) : c ≠ d := by
  rintro rfl
  exact Bool.false_ne_true (hd.symm.trans hc)

namespace Line

variable (l : Line)

/-- Behind the key of a line, and a blank, is the equals sign. -/
theorem keyPath?_key (t : Text) :
    keyPath? (l.key ++ ' ' :: '=' :: t) = some (⟨[], l.key⟩, '=' :: t) := by
  have htake : (l.key ++ ' ' :: '=' :: t).takeWhile isBare = l.key := by
    rw [List.takeWhile_append_of_pos l.isBare_of_mem]
    exact List.append_nil l.key
  have hdrop : (l.key ++ ' ' :: '=' :: t).dropWhile isBare = ' ' :: '=' :: t := by
    rw [List.dropWhile_append_of_pos l.isBare_of_mem]
    rfl
  have hkey : key? (l.key ++ ' ' :: '=' :: t) = some (l.key, ' ' :: '=' :: t) := by
    rw [key?, htake, hdrop, if_neg l.key_ne_nil]
  have hpath : Reader.repeated nextKey? ⟨[], l.key⟩ (' ' :: '=' :: t) =
      some (⟨[], l.key⟩, '=' :: t) := Reader.repeated_of_last rfl
  rw [keyPath?, hkey]
  simp only [Option.bind_eq_bind, Option.bind_some, hpath]
  rfl

theorem assignment?_text (hl : l.literal.IsReadable) (h : IsLineEnd rest t) :
    Toml.assignment? skipBlanks (value? maxDepth) (l.text ++ rest) =
      some ((⟨[], l.key⟩, l.literal.value), rest) := by
  have htext : l.text ++ rest = l.key ++ ' ' :: '=' :: ' ' :: (l.literal.text ++ rest) := by
    rw [text, List.append_assoc, List.append_assoc]
    rfl
  have hskip : skipBlanks (' ' :: (l.literal.text ++ rest)) = l.literal.text ++ rest := by
    obtain ⟨c, w, hliteral, hpart, -, -⟩ := l.literal.exists_text_eq
    have hblank : isBlank c = false := by
      rw [isWordPart] at hpart
      simp_all
    rw [hliteral]
    exact skipBlanks_of_not hblank (w ++ rest)
  have hvalue : value? maxDepth (l.literal.text ++ rest) = some (l.literal.value, rest) :=
    Literal.value?_append hl h 79
  rw [htext, Toml.assignment?, keyPath?_key]
  change (value? maxDepth (skipBlanks (' ' :: (l.literal.text ++ rest)))).map _ = _
  rw [hskip, hvalue]
  rfl

/-- A line begins with a character of its key. -/
theorem exists_text_eq : ∃ c w, isBare c = true ∧ ∀ rest, l.text ++ rest = c :: (w ++ rest) := by
  cases hkey : l.key with
  | nil => exact absurd hkey l.key_ne_nil
  | cons c k =>
      have hc : isBare c = true := l.isBare_of_mem c (hkey ▸ List.mem_cons_self)
      refine ⟨c, k ++ " = ".toList ++ l.literal.text, hc, fun rest => ?_⟩
      rw [text, hkey]
      rfl

end Line

/-! ### Lines -/

theorem isBlank_of_isBare {c : Char} (hc : isBare c = true) : isBlank c = false := by
  have hspace := ne_of_isBare (d := ' ') hc (by decide)
  have htab := ne_of_isBare (d := '\t') hc (by decide)
  simp [isBlank, hspace, htab]

/-- A line that begins with a key does not end there. -/
theorem lineEnd?_of_isBare {c : Char} (hc : isBare c = true) (t : Text) :
    lineEnd? (c :: t) = none := by
  have hhash : c ≠ '#' := ne_of_isBare hc (by decide)
  have hfeed : c ≠ '\n' := ne_of_isBare hc (by decide)
  have hreturn : c ≠ '\r' := ne_of_isBare hc (by decide)
  have hcomment : skipComment (c :: t) = c :: t := by
    unfold skipComment
    split <;> simp_all
  have hnewline : newline? (c :: t) = none := by
    unfold newline?
    split <;> simp_all
  rw [lineEnd?, skipBlanks_of_not (isBlank_of_isBare hc), hcomment]
  exact hnewline

namespace Draft

variable {es : Entries} {l : Line}

theorem statement?_of_ne {c : Char} (hc : c ≠ '[') (d : Draft) (t : Text) :
    d.statement? (c :: t) = d.assignment? (c :: t) := by
  unfold statement?
  split <;> simp_all

/-- A value is given to a key that has none behind all others. -/
theorem assign_of_lookup_eq_none {k : Text} (h : es.lookup k = none) (v : Value) :
    es.assign ⟨[], k⟩ v = some (es ++ [(k, v)]) := by
  have hadd : es.assign ⟨[], k⟩ v = if (es.lookup k).isNone then some (es.put k v) else none := rfl
  rw [hadd, h, Entries.put_of_lookup_eq_none h]
  rfl

/-- **A plain line adds an entry**, if there is none for its key. -/
theorem line?_text (hl : l.literal.IsReadable) (hnew : es.lookup l.key = none)
    (h : IsLineEnd rest t) :
    line? ⟨es, []⟩ (l.text ++ rest) = some ((⟨es ++ [l.entry], []⟩, !t.isEmpty), t) := by
  obtain ⟨c, w, hc, htext⟩ := l.exists_text_eq
  have hassignment : Draft.assignment? ⟨es, []⟩ (l.text ++ rest) =
      some (⟨es ++ [l.entry], []⟩, rest) := by
    have halter : es.alter .header (·.assign ⟨[], l.key⟩ l.literal.value) [] =
        some (es ++ [l.entry]) := assign_of_lookup_eq_none hnew _
    rw [Draft.assignment?]
    simp only [l.assignment?_text hl h, Option.bind_eq_bind, Option.bind_some, halter]
    rfl
  have hstatement : statement? ⟨es, []⟩ (skipBlanks (l.text ++ rest)) =
      some (⟨es ++ [l.entry], []⟩, rest) := by
    rw [htext, skipBlanks_of_not (isBlank_of_isBare hc),
      statement?_of_ne (ne_of_isBare hc (by decide)), ← htext, hassignment]
  have hopen : lineEnd? (l.text ++ rest) = none := by
    rw [htext]
    exact lineEnd?_of_isBare hc _
  rw [line?, hopen]
  simp only [hstatement, Option.bind_eq_bind, Option.bind_some, h.lineEnd?_eq]
  rfl

end Draft

/-! ### Documents -/

namespace Line

theorem exists_document_eq (ended : Bool) (l : Line) (ls : List Line) :
    ∃ c t, document ended (l :: ls) = c :: t ∧ isBare c = true := by
  obtain ⟨c, w, hc, htext⟩ := l.exists_text_eq
  cases ls with
  | nil => exact ⟨c, _, htext _, hc⟩
  | cons m ls => exact ⟨c, _, htext _, hc⟩

theorem document_true (ls : List Line) :
    document true ls = ls.flatMap fun l => l.text ++ ['\n'] := by
  induction ls with
  | nil => rfl
  | cons l ls ih =>
      rw [List.flatMap_cons, ← ih, List.append_assoc]
      cases ls <;> rfl

/-- Without the line feed behind the last line it is the same document. -/
theorem document_false (ls : List Line) : document false ls = (document true ls).dropLast := by
  induction ls with
  | nil => rfl
  | cons l ls ih =>
      cases ls with
      | nil => exact (List.append_nil _).trans List.dropLast_concat.symm
      | cons m ls =>
          obtain ⟨c, t, hrest, -⟩ := exists_document_eq true m ls
          have hne : document true (m :: ls) ≠ [] := hrest ▸ List.cons_ne_nil c t
          rw [document, document, ih, List.dropLast_append_of_ne_nil (List.cons_ne_nil _ _),
            List.dropLast_cons_of_ne_nil hne]

end Line

theorem Entries.lookup_append_of_ne {k k' : Text} (h : k' ≠ k) (v : Value) (es : Entries) :
    (es ++ [(k, v)]).lookup k' = es.lookup k' := by
  have hk : (k' == k) = false := beq_eq_false_iff_ne.2 h
  rw [List.lookup_append, List.lookup_cons, hk]
  exact Option.or_none

namespace Line

/-- Lines are read one after the other, behind what has been read before. -/
theorem repeated_document (ended : Bool) (es : Entries) {ls : List Line}
    (hkeys : (ls.map key).Nodup) (hread : ∀ l ∈ ls, l.literal.IsReadable)
    (hnew : ∀ l ∈ ls, es.lookup l.key = none) :
    Reader.repeated Draft.line? ⟨es, []⟩ (document ended ls) =
      some (⟨es ++ ls.map entry, []⟩, []) := by
  induction ls generalizing es with
  | nil =>
      rw [List.map_nil, List.append_nil]
      exact Reader.repeated_of_last rfl
  | cons l ls ih =>
      rw [List.map_cons, List.nodup_cons] at hkeys
      rw [List.forall_mem_cons] at hnew hread
      cases ls with
      | nil =>
          have hend : IsLineEnd (if ended then ['\n'] else []) [] := by
            cases ended
            · exact .atEnd
            · exact .feed []
          exact Reader.repeated_of_last (Draft.line?_text hread.1 hnew.1 hend)
      | cons m ls =>
          obtain ⟨c, t, hrest, -⟩ := exists_document_eq ended m ls
          have hline := Draft.line?_text hread.1 hnew.1 (.feed (document ended (m :: ls)))
          have hmore : (!(document ended (m :: ls)).isEmpty) = true := by rw [hrest]; rfl
          have hlt : (document ended (m :: ls)).length <
              (l.text ++ '\n' :: document ended (m :: ls)).length := by
            rw [List.length_append, List.length_cons]
            omega
          have hnew' : ∀ k ∈ m :: ls, (es ++ [l.entry]).lookup k.key = none := fun k hk => by
            have hne : k.key ≠ l.key := fun heq => hkeys.1 (heq ▸ List.mem_map_of_mem hk)
            rw [entry, Entries.lookup_append_of_ne hne, hnew.2 k hk]
          rw [hmore] at hline
          rw [document, Reader.repeated_of_more hline hlt, ih _ hkeys.2 hread.2 hnew',
            List.append_assoc]
          rfl

end Line

/-- **What a document of plain lines gives:** to each key its value, in the order of the lines. -/
theorem document?_document (ended : Bool) {ls : List Line} (hkeys : (ls.map Line.key).Nodup)
    (hread : ∀ l ∈ ls, l.literal.IsReadable) :
    document? (Line.document ended ls) = some (ls.map Line.entry) := by
  have hmark : skipMark (Line.document ended ls) = Line.document ended ls := by
    cases ls with
    | nil => rfl
    | cons l ls =>
        obtain ⟨c, t, heq, hc⟩ := Line.exists_document_eq ended l ls
        have hne : c ≠ '\uFEFF' := ne_of_isBare hc (by decide)
        rw [heq]
        unfold skipMark
        split <;> simp_all
  have hlines := Line.repeated_document ended [] hkeys hread fun _ _ => rfl
  rw [document?, hmark, Draft.empty, hlines]
  rfl

end RecordLog.Toml
