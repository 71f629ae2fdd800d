import Mathlib.Logic.ExistsUnique
import RecordLog.Proofs.Status.Block
import RecordLog.Status.Slots

/-!
# Kept statuses are sound

A kept status is sound if what it keeps is a block. Nothing in the type of kept statuses asks for
this; but whatever is done with statuses, each of them stays sound, since blocks are only written
from a code and messages, read where they are blocks already, and handed on as they are. So code and
message can be read from every status that is reached, and the number in it is always that of a
code.

## Main definitions

* `RecordLog.Status.Stored.IsSound`, and `RecordLog.Status.Slots.IsSound` for all slots.
* `RecordLog.Status.Stored.IsReachable`.

## Main results

* `RecordLog.Status.Stored.isSound_iff`: sound statuses are those that statuses are kept as.
* `RecordLog.Status.Slots.IsSound.step` and `RecordLog.Status.Slots.IsSound.run`.
* `RecordLog.Status.Stored.isBlock_of_isReachable`.
-/

namespace RecordLog.Status

/-! ### Statuses and what is kept of them -/

theorem eq_of_code_of_message {s t : Status} (hcode : s.code = t.code)
    (hmessage : s.message = t.message) : s = t := by
  cases s with
  | ok =>
      cases t with
      | ok => rfl
      | failed g => exact absurd hcode.symm g.code_ne_ok
  | failed f =>
      cases t with
      | ok => exact absurd hcode f.code_ne_ok
      | failed g =>
          cases f
          cases g
          simp_all [code, message]

namespace Stored

@[simp] theorem code_stored (s : Status) : s.stored.code = s.code := by
  cases s with
  | ok => rfl
  | failed f =>
      have hnumber : f.block[4]? = some f.code.number := rfl
      simp [stored, Status.encoded, code, hnumber, Status.code]

@[simp] theorem message_stored (s : Status) : s.stored.message = s.message := by
  cases s <;> rfl

theorem is_stored_iff {s : Status} {c : Code} : s.stored.is c = true ↔ s.code = c := by
  have hcode := code_stored s
  cases s with
  | ok => cases c <;> simp [is, stored, Status.encoded, Status.code, code]
  | failed f =>
      have hfailure := f.code_ne_ok
      cases c <;> simp_all [is, stored, Status.encoded, Status.code]

@[simp] theorem status_stored (s : Status) : s.stored.status = s := by
  cases s with
  | ok => rfl
  | failed f =>
      have hcode : (stored (.failed f)).code = f.code := code_stored _
      rw [status, dif_neg (hcode ▸ f.code_ne_ok)]
      exact eq_of_code_of_message hcode rfl

/-- A kept status is sound if its block is one. -/
def IsSound (s : Stored) : Prop := ∀ b ∈ s.block, IsBlock b

theorem isSound_stored {s : Status} (h : s.message.length < UInt32.size) : s.stored.IsSound := by
  cases s with
  | ok => exact fun _ hb => nomatch hb
  | failed f =>
      rintro _ ⟨⟩
      exact isBlock_block h

/-- **Sound statuses are those that statuses are kept as.** -/
theorem isSound_iff {s : Stored} :
    s.IsSound ↔ ∃ t : Status, t.message.length < UInt32.size ∧ t.stored = s := by
  constructor
  · intro h
    obtain ⟨_ | b⟩ := s
    · exact ⟨.ok, by decide, rfl⟩
    · obtain ⟨f, hlength, rfl⟩ := exists_failure_of_isBlock (h b rfl)
      exact ⟨.failed f, hlength, rfl⟩
  · rintro ⟨t, hlength, rfl⟩
    exact isSound_stored hlength

/-- A sound status is kept again as what it is. -/
theorem IsSound.stored_status {s : Stored} (h : s.IsSound) : s.status.stored = s := by
  obtain ⟨t, -, rfl⟩ := isSound_iff.1 h
  rw [status_stored]

theorem IsSound.code_status {s : Stored} (h : s.IsSound) : s.status.code = s.code := by
  rw [← code_stored, h.stored_status]

theorem IsSound.message_status {s : Stored} (h : s.IsSound) : s.status.message = s.message := by
  rw [← message_stored, h.stored_status]

/-! ### What is made is sound -/

theorem new_eq {msg msg₂ : Bytes} (h : joinedLength msg msg₂ < UInt32.size) (c : Code) :
    new c msg msg₂ = .ok (Status.new c msg msg₂).stored := by
  by_cases hc : c = .ok
  · subst hc
    rfl
  · simp [new, Status.new, hc, h, stored, Status.encoded, Failure.block, length_joined]

theorem isSound_ok : ok.IsSound := fun _ hb => nomatch hb

theorem isSound_of_new {c : Code} {msg msg₂ : Bytes} {s : Stored} (h : new c msg msg₂ = .ok s) :
    s.IsSound := by
  by_cases hc : c = .ok
  · subst hc
    cases h
    exact isSound_ok
  by_cases hlength : joinedLength msg msg₂ < UInt32.size
  · rw [new_eq hlength] at h
    cases h
    apply isSound_stored
    rwa [message_new hc, length_joined]
  · simp [new, hc, hlength] at h

theorem isSound_of_ofEncoded {b : Bytes} {s : Stored} (h : ofEncoded b = .ok s) : s.IsSound := by
  cases ofEncoded_eq_iff.1 h with
  | block hblock =>
      rintro _ ⟨⟩
      exact hblock

theorem ofExcept_toExcept (s : Stored) : ofExcept s.toExcept = s := by
  obtain ⟨_ | b⟩ := s <;> rfl

end Stored

/-! ### Statuses in slots are sound -/

namespace Slots

variable {n : Nat} {slots : Slots n}

/-- All slots keep sound statuses. -/
def IsSound (slots : Slots n) : Prop := ∀ s ∈ slots, s.IsSound

theorem isSound_initial : (initial : Slots n).IsSound := by
  intro s hs
  rw [(Vector.mem_replicate.1 hs).2]
  exact Stored.isSound_ok

theorem IsSound.set (h : slots.IsSound) {s : Stored} (hs : s.IsSound) (i : Fin n) :
    IsSound (slots.set i s i.isLt) := by
  intro t ht
  rcases Vector.mem_or_eq_of_mem_set ht with ht | rfl
  · exact h t ht
  · exact hs

theorem IsSound.get (h : slots.IsSound) (i : Fin n) : (slots.get i).IsSound :=
  h _ (Vector.getElem_mem i.isLt)

theorem IsSound.store (h : slots.IsSound) (i : Fin n) (block : Bytes) :
    (step.store slots i block).1.IsSound := by
  unfold step.store
  split
  · rename_i s hread
    exact h.set (Stored.isSound_of_ofEncoded hread) i
  · exact h

/-- **A step keeps the slots sound.** -/
theorem IsSound.step (h : slots.IsSound) (i : Fin n) (a : Step n) :
    (Slots.step slots i a).1.IsSound := by
  cases a with
  | ok => exact h.set Stored.isSound_ok i
  | keep | eq source => exact h
  | new c msg msg₂ =>
      rw [Slots.step]
      split
      · rename_i s hnew
        exact h.set (Stored.isSound_of_new hnew) i
      · exact h
  | decode block => exact h.store i block
  | reparse source =>
      rw [Slots.step]
      split
      · exact h
      · exact h.store i _
  | copy source => exact h.set (h.get source) i
  | assign source =>
      refine h.set ?_ i
      rw [Stored.assign_eq]
      exact h.get source
  | move source => exact (h.set Stored.isSound_ok source).set (h.get source) i
  | result =>
      refine h.set ?_ i
      rw [Stored.ofExcept_toExcept]
      exact h.get i

theorem IsSound.run (h : slots.IsSound) (steps : List (Fin n × Step n)) :
    (Slots.run slots steps).IsSound := by
  induction steps generalizing slots with
  | nil => exact h
  | cons a steps ih => exact ih (h.step a.1 a.2)

end Slots

/-! ### Statuses that are reached -/

namespace Stored

/-- A status is reached if steps about any number of slots leave it in one of them. -/
def IsReachable (s : Stored) : Prop :=
  ∃ (n : Nat) (steps : List (Fin n × Slots.Step n)), s ∈ Slots.run Slots.initial steps

theorem IsReachable.isSound {s : Stored} (h : s.IsReachable) : s.IsSound := by
  obtain ⟨n, steps, hs⟩ := h
  exact Slots.isSound_initial.run steps s hs

/-- In a block of a sound status is the number of the status's code. -/
theorem IsSound.getElem?_block {s : Stored} (h : s.IsSound) {b : Bytes} (hb : s.encoded = some b) :
    b[4]? = some s.number := by
  obtain ⟨t, -, rfl⟩ := isSound_iff.1 h
  rw [number, code_stored]
  cases t with
  | ok => cases hb
  | failed f =>
      cases hb
      rfl

theorem IsSound.number_eq_zero_iff {s : Stored} (h : s.IsSound) :
    s.number = 0 ↔ s.encoded = none := by
  obtain ⟨t, -, rfl⟩ := isSound_iff.1 h
  rw [number, code_stored, Code.number_eq_zero_iff]
  cases t with
  | ok => exact ⟨fun _ => rfl, fun _ => rfl⟩
  | failed f => exact ⟨fun hok => absurd hok f.code_ne_ok, nofun⟩

/-- **A status that is reached keeps nothing or a block.** Of what is kept, the first four bytes
declare how many come behind the fifth, and the fifth is the number of the status's code. The status
has exactly one code; it is success if nothing is kept, and just then its code has the number zero.
A failure made from messages has these as its message, with a colon between them if there are
two. -/
theorem isBlock_of_isReachable {s : Stored} (h : s.IsReachable) :
    (s.encoded = none ∨ ∃ b, s.encoded = some b ∧ IsBlock b) ∧
      (∀ b, s.encoded = some b → ∃ number, b[4]? = some number ∧
        Code.ofNumber? number = some s.code) ∧
      (∃! c, s.is c = true) ∧ (s.is .ok = true ↔ s.encoded = none) ∧
      (s.encoded = none ↔ s.number = 0) ∧
      ∀ (c : Code) (msg msg₂ : Bytes), c ≠ .ok → joinedLength msg msg₂ < UInt32.size →
        ∃ t, new c msg msg₂ = .ok t ∧ t.code = c ∧
          t.message = if msg₂ = [] then msg else msg ++ Bytes.ofAscii ": " ++ msg₂ := by
  have hsound := h.isSound
  refine ⟨?_, ?_, ?_, ?_, hsound.number_eq_zero_iff.symm, ?_⟩
  · cases hb : s.encoded with
    | none => exact Or.inl rfl
    | some b => exact Or.inr ⟨b, rfl, hsound b hb⟩
  · intro b hb
    exact ⟨s.number, hsound.getElem?_block hb, Code.ofNumber?_number s.code⟩
  · obtain ⟨t, -, rfl⟩ := isSound_iff.1 hsound
    exact ⟨t.code, is_stored_iff.2 rfl, fun c hc => (is_stored_iff.1 hc).symm⟩
  · exact Option.isNone_iff_eq_none
  · intro c msg msg₂ hc hlength
    refine ⟨_, new_eq hlength c, ?_, ?_⟩
    · rw [code_stored, code_new]
    · rw [message_stored, message_new hc]
      rfl

/-- A failure that is made in one slot and moved to another one, in which a byte string that is no
block has been refused before. -/
theorem isBlock_of_isReachable_moved :
    ∃ s : Stored, s = ⟨some [1, 0, 0, 0, 3, 0x61]⟩ ∧ s.IsReachable ∧
      (s.encoded = none ∨ ∃ b, s.encoded = some b ∧ IsBlock b) ∧
      (∀ b, s.encoded = some b → ∃ number, b[4]? = some number ∧
        Code.ofNumber? number = some s.code) ∧
      (∃! c, s.is c = true) ∧ (s.is .ok = true ↔ s.encoded = none) ∧
      (s.encoded = none ↔ s.number = 0) ∧
      ∃ t, new .ioError [0x61] [0x62] = .ok t ∧ t.code = .ioError ∧
        t.message = [0x61, 0x3a, 0x20, 0x62] := by
  have hreach : IsReachable ⟨some [1, 0, 0, 0, 3, 0x61]⟩ :=
    ⟨2, [(0, .new .corruption [0x61] []), (1, .decode [1, 0, 0, 0, 9, 0x61]), (1, .move 0)],
      Vector.mem_iff_getElem.2 ⟨1, by decide, rfl⟩⟩
  obtain ⟨hblock, hnumber, hunique, hok, hzero, hnew⟩ := isBlock_of_isReachable hreach
  exact ⟨_, rfl, hreach, hblock, hnumber, hunique, hok, hzero,
    hnew .ioError [0x61] [0x62] (by decide) (by decide)⟩

end Stored

end RecordLog.Status
