import RecordLog.Proofs.Volume.Frame
import RecordLog.Proofs.Writer.Handover

/-!
# A writer and its file

A writer keeps to one file: what it is called for and what happens when it is given up change this
file and nothing else. It stays on the file until it is closed, and is on no other one ever.

## Main definitions

* `RecordLog.Writer.file?`, the regular file that a writer writes to.

## Main results

* `RecordLog.Writer.frame_of_call` and `RecordLog.Writer.keepsTo_drop`.
-/

namespace RecordLog.Writer

/-- The regular file that a writer writes to. -/
def file? (w : Writer) : Option Nat := w.descriptor?.bind Descriptor.file?

variable {w : Writer}

theorem frame_of_handsOver {call : Call} {data : Bytes} (h : call.HandsOver w data) :
    ((call.outcome w).writer.file? = none ∨ (call.outcome w).writer.file? = w.file?) ∧
      call.volume.KeepsTo w.file? (call.outcome w).volume := by
  cases h with
  | closed hw hvolume hwriter =>
      refine ⟨Or.inl ?_, by rw [hvolume]; exact .refl _ _⟩
      rw [file?, hwriter]
      rfl
  | writes d d' hw hwrites hwriter =>
      obtain ⟨hfile, hframe⟩ := hwrites.frame
      have hwfile : w.file? = d.file? := by rw [file?, hw, Option.bind_some]
      rw [hwfile]
      refine ⟨?_, hframe⟩
      rw [← hfile, file?, hwriter]
      split_ifs
      · exact Or.inl rfl
      · exact Or.inr rfl

/-- **A call keeps to the file of its writer.** -/
theorem frame_of_call (call : Call) (w : Writer) :
    ((call.outcome w).writer.file? = none ∨ (call.outcome w).writer.file? = w.file?) ∧
      call.volume.KeepsTo w.file? (call.outcome w).volume := by
  obtain ⟨handed, hhands⟩ := call.exists_handsOver_outcome w
  exact frame_of_handsOver hhands

/-- A writer that is given up keeps to its file. -/
theorem keepsTo_drop (v : Volume) (w : Writer) : v.KeepsTo w.file? (w.drop v) := by
  match w with
  | .direct w => exact .refl _ _
  | .buffered ⟨p, capacity, none, m⟩ => exact .refl _ _
  | .buffered ⟨p, capacity, some s, m⟩ =>
      -- What the first spill leaves is tried once more.
      obtain ⟨handed, hwrites, -⟩ := Stream.Passes.trans (Stream.passes_spill v s)
        (Stream.passes_spill (s.spill v).2.1 (s.spill v).2.2)
      exact hwrites.frame.2

end RecordLog.Writer
