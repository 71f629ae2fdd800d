import RecordLog.Bytes.Script
import RecordLog.Proofs.Status.Soundness
import RecordLog.Proofs.Text.Escape
import RecordLog.Proofs.Text.Separator
import RecordLog.Status.Render

/-!
# Diagnostics tell views and statuses apart

In diagnostics a view is its bytes in ASCII between quotes, and a status the name of its code with
its message in ASCII, which is then quoted. The name of a code ends at the first comma. What follows
can be unquoted, and then read as bytes, whatever bytes there are: those that look like parts of the
text around them have been escaped. So nothing that a view or a status holds is lost, and all is
shown in printable ASCII.

## Main results

* `RecordLog.View.debugText_eq_iff` and `RecordLog.Status.debugText_eq_iff`.
* `RecordLog.View.isAscii_of_mem_debugText` and `RecordLog.Status.isAscii_of_mem_debugText`.
* `RecordLog.Status.diagnostics_are_unambiguous`.
-/

namespace RecordLog

open Printable (IsAscii)

/-! ### Views -/

namespace View

theorem debugText_eq_iff {v w : View} : v.debugText = w.debugText ↔ v.bytes = w.bytes := by
  constructor
  · intro h
    have hbody : 'b' :: '"' :: Escape.bytes v.bytes = 'b' :: '"' :: Escape.bytes w.bytes :=
      List.append_cancel_right h
    exact Escape.bytes_injective (List.tail_eq_of_cons_eq (List.tail_eq_of_cons_eq hbody))
  · intro h
    rw [debugText, h, debugText]

theorem isAscii_of_mem_debugText {v : View} {c : Char} (hc : c ∈ v.debugText) : IsAscii c := by
  rw [debugText, List.mem_append, List.mem_cons, List.mem_cons, List.mem_singleton] at hc
  rcases hc with (rfl | rfl | hc) | rfl
  · decide
  · decide
  · exact Escape.isAscii_of_mem_bytes hc
  · decide

end View

/-! ### Codes -/

namespace Code

theorem name_injective : Function.Injective name := by
  intro c d h
  have hall : ∀ c ∈ all, ∀ d ∈ all, c.name = d.name → c = d := by decide
  exact hall c (mem_all c) d (mem_all d) h

theorem isAscii_of_mem_name {c : Code} {x : Char} (hx : x ∈ c.name.toList) : IsAscii x := by
  have hall : ∀ c ∈ all, c.name.toList.all (fun x => decide (IsAscii x)) = true := by decide
  exact List.all_iff_forall_prop.1 (hall c (mem_all c)) x hx

theorem comma_notMem_name (c : Code) : ',' ∉ c.name.toList := by
  have hall : ∀ c ∈ all, ',' ∉ c.name.toList := by decide
  exact hall c (mem_all c)

end Code

/-! ### Statuses -/

namespace Status

variable {s t : Status}

/-- What is shown of a status, with the first comma behind the name of its code set apart. -/
theorem debugText_eq (s : Status) : s.debugText =
    "Status \x7b code: ".toList ++ (s.code.name.toList ++
      ',' :: (" message: ".toList ++ Quoted.text (Escape.bytes s.message) ++ " \x7d".toList)) := by
  have hcomma : ", message: ".toList = ',' :: " message: ".toList := by decide
  show _ ++ s.code.name.toList ++ ", message: ".toList ++ _ ++ _ = _
  rw [hcomma]
  simp only [List.append_assoc, List.cons_append]

/-- **Statuses are shown alike in diagnostics if their codes and messages are the same**, and not
otherwise. -/
theorem debugText_eq_iff :
    s.debugText = t.debugText ↔ s.code = t.code ∧ s.message = t.message := by
  rw [debugText_eq, debugText_eq]
  constructor
  · intro h
    obtain ⟨hname, hrest⟩ := Separator.eq_of_notMem_left (Code.comma_notMem_name s.code)
      (Code.comma_notMem_name t.code) (List.append_cancel_left h)
    have hquoted : Quoted.text (Escape.bytes s.message) = Quoted.text (Escape.bytes t.message) :=
      List.append_cancel_left (List.append_cancel_right hrest)
    have hescaped := Quoted.eq_of_text_eq (fun _ => Escape.isAscii_of_mem_bytes)
      (fun _ => Escape.isAscii_of_mem_bytes) hquoted
    exact ⟨Code.name_injective (String.toList_inj.1 hname), Escape.bytes_injective hescaped⟩
  · rintro ⟨hcode, hmessage⟩
    rw [hcode, hmessage]

theorem isAscii_of_mem_debugText {c : Char} (hc : c ∈ s.debugText) : IsAscii c := by
  rw [debugText_eq, List.mem_append, List.mem_append, List.mem_cons, List.mem_append,
    List.mem_append] at hc
  rcases hc with hc | hc | rfl | (hc | hc) | hc
  · exact List.all_iff_forall_prop.1 (by decide) c hc
  · exact Code.isAscii_of_mem_name hc
  · decide
  · exact List.all_iff_forall_prop.1 (by decide) c hc
  · exact Quoted.isAscii_of_mem_text (fun _ => Escape.isAscii_of_mem_bytes) hc
  · exact List.all_iff_forall_prop.1 (by decide) c hc

/-- **What is shown in diagnostics is unambiguous.** Views are shown alike just if they have the
same bytes, and statuses just if they have the same code and the same message; so it is, too, for
statuses that are kept as blocks. All characters that are shown are from the space to the tilde. -/
theorem diagnostics_are_unambiguous (v w : View) (s t : Status) {x y : Stored}
    (hx : x.IsReachable) (hy : y.IsReachable) :
    (v.debug = w.debug ↔ v.bytes = w.bytes) ∧
      (s.debug = t.debug ↔ s.code = t.code ∧ s.message = t.message) ∧
      (x.status.debug = y.status.debug ↔ x.code = y.code ∧ x.message = y.message) ∧
      (∀ c ∈ v.debug.toList, 0x20 ≤ c.toNat ∧ c.toNat ≤ 0x7E) ∧
      ∀ c ∈ s.debug.toList, 0x20 ≤ c.toNat ∧ c.toNat ≤ 0x7E := by
  have hdebug (s t : Status) : s.debug = t.debug ↔ s.code = t.code ∧ s.message = t.message :=
    String.ofList_inj.trans debugText_eq_iff
  refine ⟨String.ofList_inj.trans View.debugText_eq_iff, hdebug s t, ?_, ?_, ?_⟩
  · rw [hdebug, hx.isSound.code_status, hx.isSound.message_status, hy.isSound.code_status,
      hy.isSound.message_status]
  · intro c hc
    rw [View.debug, String.toList_ofList] at hc
    exact View.isAscii_of_mem_debugText hc
  · intro c hc
    rw [debug, String.toList_ofList] at hc
    exact isAscii_of_mem_debugText hc

/-- A zero byte, and four bytes that look like what shows it; a quote as the message, and a quote
behind a backslash; a failure with an empty message and success, as they are kept. -/
theorem diagnostics_are_unambiguous_lookalikes :
    ∃ (v w : View) (s t : Status) (x y : Stored), v = ⟨[0x00]⟩ ∧ w = ⟨Bytes.ofAscii "\\x00"⟩ ∧
      s = .new .ioError [0x22] [] ∧ t = .new .ioError [0x5C, 0x22] [] ∧
      x = ⟨some [0, 0, 0, 0, 8]⟩ ∧ y = .ok ∧ x.IsReachable ∧ y.IsReachable ∧
      v.debug ≠ w.debug ∧ s.debug ≠ t.debug ∧ x.status.debug ≠ y.status.debug ∧
      (∀ c ∈ v.debug.toList, 0x20 ≤ c.toNat ∧ c.toNat ≤ 0x7E) ∧
      ∀ c ∈ s.debug.toList, 0x20 ≤ c.toNat ∧ c.toNat ≤ 0x7E := by
  have hx : Stored.IsReachable ⟨some [0, 0, 0, 0, 8]⟩ :=
    ⟨1, [(0, .new .accessDenied [] [])], Vector.mem_iff_getElem.2 ⟨0, by decide, rfl⟩⟩
  have hy : Stored.IsReachable .ok := ⟨1, [], Vector.mem_iff_getElem.2 ⟨0, by decide, rfl⟩⟩
  obtain ⟨hviews, hstatuses, hkept, hview, hstatus⟩ :=
    diagnostics_are_unambiguous ⟨[0x00]⟩ ⟨Bytes.ofAscii "\\x00"⟩ (.new .ioError [0x22] [])
      (.new .ioError [0x5C, 0x22] []) hx hy
  exact ⟨_, _, _, _, _, _, rfl, rfl, rfl, rfl, rfl, rfl, hx, hy, mt hviews.1 (by decide),
    mt hstatuses.1 (by decide), mt hkept.1 (by decide), hview, hstatus⟩

end Status

end RecordLog
