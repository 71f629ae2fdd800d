import RecordLog.Proofs.Status.Soundness
import RecordLog.Proofs.Text.Separator
import RecordLog.Proofs.Text.Utf8
import RecordLog.Status.Render

/-!
# Displayed statuses

A status is displayed with a colon behind the label of its code, unless it has no message. Messages
have colons, too, and may begin with the text of a label; but no label has a colon, so that the
first one ends the label. Behind it is the message as text. So the display tells the code and the
text of the message, and nothing else: messages that are read as the same text cannot be told apart,
and messages that are texts can.

## Main results

* `RecordLog.Status.displayText_eq_iff`: the display tells the code and the text of the message.
* `RecordLog.Status.display_loses_no_text`.
-/

namespace RecordLog

/-! ### Labels -/

namespace Code

theorem label_injective : Function.Injective label := by
  intro c d h
  have hall : ∀ c ∈ all, ∀ d ∈ all, c.label = d.label → c = d := by decide
  exact hall c (mem_all c) d (mem_all d) h

theorem colon_notMem_label (c : Code) : ':' ∉ c.label.toList := by
  have hall : ∀ c ∈ all, ':' ∉ c.label.toList := by decide
  exact hall c (mem_all c)

end Code

/-! ### Statuses -/

namespace Status

/-- What is displayed behind the colon, if a colon is put behind all of it. -/
def behindLabel (t : Text) : Text := if t = [] then [] else ' ' :: t ++ [':']

theorem behindLabel_injective : Function.Injective behindLabel := by
  refine Separator.injective_ite (fun s t h => ?_) (fun t => List.cons_ne_nil _ _)
  exact List.append_cancel_right (List.tail_eq_of_cons_eq h)

/-- With another colon behind it, every display has one behind the label. -/
theorem displayText_append_colon (s : Status) : s.displayText ++ [':'] =
    s.code.label.toList ++ ':' :: behindLabel (Utf8.decodeLossy s.message) := by
  rw [displayText, behindLabel]
  by_cases hmessage : s.message = []
  · rw [if_pos hmessage, if_pos (Utf8.decodeLossy_eq_nil_iff.2 hmessage)]
  · rw [if_neg hmessage, if_neg (mt Utf8.decodeLossy_eq_nil_iff.1 hmessage), List.append_assoc,
      List.append_assoc]
    rfl

variable {s t : Status}

/-- **The display of a status tells its code and the text of its message**, and no more. -/
theorem displayText_eq_iff : s.displayText = t.displayText ↔
    s.code = t.code ∧ Utf8.decodeLossy s.message = Utf8.decodeLossy t.message := by
  rw [← List.append_left_inj [':'], displayText_append_colon, displayText_append_colon]
  constructor
  · intro h
    obtain ⟨hlabel, hbehind⟩ := Separator.eq_of_notMem_left (Code.colon_notMem_label s.code)
      (Code.colon_notMem_label t.code) h
    exact ⟨Code.label_injective (String.toList_inj.1 hlabel), behindLabel_injective hbehind⟩
  · rintro ⟨hcode, htext⟩
    rw [hcode, htext]

/-- Statuses whose messages are texts are told apart by their displays. -/
theorem eq_of_display_eq (hs : Utf8.IsValid s.message) (ht : Utf8.IsValid t.message)
    (h : s.display = t.display) : s = t := by
  obtain ⟨hcode, htext⟩ := displayText_eq_iff.1 (String.ofList_inj.1 h)
  have hmessage : s.message = t.message := by
    rw [← hs.encode_decodeLossy, htext, ht.encode_decodeLossy]
  exact eq_of_code_of_message hcode hmessage

/-- There is a status with the text of a message as its message. Success has none, and so has its
text. -/
theorem exists_message_eq_text (s : Status) :
    ∃ u : Status, u.code = s.code ∧ u.message = Utf8.encode (Utf8.decodeLossy s.message) := by
  cases s with
  | ok => exact ⟨.ok, rfl, rfl⟩
  | failed f =>
      refine ⟨new f.code (Utf8.encode (Utf8.decodeLossy f.message)) [], code_new _ _ _, ?_⟩
      rw [message_new f.code_ne_ok]
      rfl

/-- **A display loses nothing of a message that is a text.** If the messages of two statuses are
texts and the statuses are displayed alike, they have the same code and the same message, and so are
the same; if they are kept, their blocks are. Of any other message a display has just the text: it
is that of the status with the same code and the text for its message. -/
theorem display_loses_no_text (s t : Status) {x y : Stored} (hx : x.IsReachable)
    (hy : y.IsReachable) :
    (Utf8.IsValid s.message → Utf8.IsValid t.message → s.display = t.display →
        s.code = t.code ∧ s.message = t.message ∧ s = t) ∧
      (Utf8.IsValid x.message → Utf8.IsValid y.message → x.status.display = y.status.display →
        x.code = y.code ∧ x.message = y.message ∧ x = y) ∧
      ∃ u : Status, u.code = s.code ∧ u.message = Utf8.encode (Utf8.decodeLossy s.message) ∧
        u.display = s.display := by
  refine ⟨?_, ?_, ?_⟩
  · intro hs ht h
    obtain rfl := eq_of_display_eq hs ht h
    exact ⟨rfl, rfl, rfl⟩
  · intro hxmessage hymessage h
    rw [← hx.isSound.message_status] at hxmessage
    rw [← hy.isSound.message_status] at hymessage
    have hstatus := eq_of_display_eq hxmessage hymessage h
    obtain rfl : x = y := by
      rw [← hx.isSound.stored_status, hstatus, hy.isSound.stored_status]
    exact ⟨rfl, rfl, rfl⟩
  · obtain ⟨u, hcode, hmessage⟩ := exists_message_eq_text s
    refine ⟨u, hcode, hmessage, congrArg String.ofList (displayText_eq_iff.2 ⟨hcode, ?_⟩)⟩
    rw [hmessage, Utf8.decodeLossy_encode]

/-- Messages with a colon and with a label in them, messages of which the one is empty and the other
is what stands behind a label, and a message that ends within a character. -/
theorem display_loses_no_text_lookalikes :
    ∃ (s t r : Status) (x y : Stored), s = .new .ioError (Bytes.ofAscii "a") (Bytes.ofAscii "b") ∧
      t = .new .ioError (Bytes.ofAscii "IO error: a") (Bytes.ofAscii "b") ∧
      r = .new .corruption [0xE4, 0xB8] [] ∧ x = ⟨some [2, 0, 0, 0, 6, 0x3A, 0x20]⟩ ∧
      y = ⟨some [0, 0, 0, 0, 6]⟩ ∧ x.IsReachable ∧ y.IsReachable ∧ Utf8.IsValid s.message ∧
      Utf8.IsValid t.message ∧ Utf8.IsValid x.message ∧ Utf8.IsValid y.message ∧
      s.display ≠ t.display ∧ x.status.display ≠ y.status.display ∧
      ∃ u : Status, u.code = .corruption ∧ u.message = [0xEF, 0xBF, 0xBD] ∧
        u.display = r.display := by
  have hx : Stored.IsReachable ⟨some [2, 0, 0, 0, 6, 0x3A, 0x20]⟩ :=
    ⟨1, [(0, .new .ioError [0x3A, 0x20] [])], Vector.mem_iff_getElem.2 ⟨0, by decide, rfl⟩⟩
  have hy : Stored.IsReachable ⟨some [0, 0, 0, 0, 6]⟩ :=
    ⟨1, [(0, .new .ioError [] [])], Vector.mem_iff_getElem.2 ⟨0, by decide, rfl⟩⟩
  have hvalid : Utf8.IsValid (Bytes.ofAscii "a: b") := ⟨"a: b".toList, by decide⟩
  have hlabel : Utf8.IsValid (Bytes.ofAscii "IO error: a: b") :=
    ⟨"IO error: a: b".toList, by decide⟩
  have hcolon : Utf8.IsValid [0x3A, 0x20] := ⟨": ".toList, by decide⟩
  obtain ⟨hmade, hkept, -⟩ := display_loses_no_text
    (.new .ioError (Bytes.ofAscii "a") (Bytes.ofAscii "b"))
    (.new .ioError (Bytes.ofAscii "IO error: a") (Bytes.ofAscii "b")) hx hy
  obtain ⟨-, -, htext⟩ := display_loses_no_text (.new .corruption [0xE4, 0xB8] []) .ok hx hy
  exact ⟨_, _, _, _, _, rfl, rfl, rfl, rfl, rfl, hx, hy, hvalid, hlabel, hcolon, ⟨[], rfl⟩,
    fun h => absurd (hmade hvalid hlabel h).2.1 (by decide),
    fun h => absurd (hkept hcolon ⟨[], rfl⟩ h).2.1 (by decide), htext⟩

end Status

end RecordLog
