import RecordLog.Proofs.Session.Handles
import RecordLog.Proofs.Writer.Frame

/-!
# Using the writers of a session

A step that uses a writer names its handle. What it does stays with that writer and its file: the
writers under all other handles are as before, and so are their files if no two writers write to
the same one. This goes on, since a writer comes to no other file than its own.

## Main definitions

* `RecordLog.Session.Step.handle?` and `RecordLog.Session.Uses`.
* `RecordLog.Session.fileOf` and `RecordLog.Session.HaveOwnFiles`.

## Main results

* `RecordLog.Session.uses_step`: what a step on one handle leaves alone.
* `RecordLog.Session.volume_after` and `RecordLog.Session.HaveOwnFiles.after`, for steps in a row.
-/

namespace RecordLog.Session

/-- The handle of a step that uses a writer. -/
def Step.handle? : Step → Option String
  | .act h _ | .drop h | .inspect h => some h
  | _ => none

/-- The regular file that the writer under a handle writes to. -/
def fileOf (s : Session) (h : String) : Option Nat := (s.held.lookup h).bind (·.writer.file?)

/-- No two writers write to the same file. -/
def HaveOwnFiles (s : Session) : Prop :=
  ∀ ⦃h k id⦄, s.fileOf h = some id → s.fileOf k = some id → h = k

variable {s t s' : Session} {a : Step} {h k : String} {id : Nat} {steps : List Step}

theorem fileOf_eq_of_lookup_eq (hlookup : s.held.lookup h = t.held.lookup h) :
    s.fileOf h = t.fileOf h := by
  rw [fileOf, hlookup, fileOf]

theorem fileOf_of_lookup {x : Held} (hx : s.held.lookup h = some x) :
    s.fileOf h = x.writer.file? := by
  rw [fileOf, hx, Option.bind_some]

/-! ### What a step leaves alone -/

/-- A session after something has been done to the writer under one handle. -/
structure Uses (s : Session) (k : String) (s' : Session) : Prop where
  lookup_eq : ∀ h, h ≠ k → s'.held.lookup h = s.held.lookup h
  keepsTo : s.volume.KeepsTo (s.fileOf k) s'.volume
  file_eq : s'.fileOf k = none ∨ s'.fileOf k = s.fileOf k

theorem Uses.refl (s : Session) (k : String) : s.Uses k s :=
  ⟨fun _ _ => rfl, .refl _ _, Or.inr rfl⟩

/-- A writer stays on its file or is taken off it. -/
theorem Uses.fileOf_eq (huses : s.Uses k s') (h : String) :
    s'.fileOf h = none ∨ s'.fileOf h = s.fileOf h := by
  by_cases hk : h = k
  · rw [hk]
    exact huses.file_eq
  · exact Or.inr (fileOf_eq_of_lookup_eq (huses.lookup_eq h hk))

theorem Uses.fileOf_ne (huses : s.Uses k s') (hfile : s.fileOf h ≠ some id) :
    s'.fileOf h ≠ some id := by
  rcases huses.fileOf_eq h with hnone | hsame
  · rw [hnone]
    exact nofun
  · rwa [hsame]

theorem HaveOwnFiles.of_uses (hs : s.HaveOwnFiles) (huses : s.Uses k s') : s'.HaveOwnFiles := by
  have hkept {j : String} {id : Nat} (hj : s'.fileOf j = some id) : s.fileOf j = some id := by
    by_contra hne
    exact huses.fileOf_ne hne hj
  exact fun _ _ _ hi hj => hs (hkept hi) (hkept hj)

/-- **A step on one handle leaves the writers under the others alone, and their files.** -/
theorem uses_step (s : Session) (ha : a.handle? = some k) : s.Uses k (s.step a).2 := by
  cases a with
  | act h a =>
      obtain rfl : h = k := Option.some.inj ha
      cases hx : s.held.lookup h with
      | none =>
          simp only [step, hx]
          exact .refl s h
      | some x =>
          have hfile := fileOf_of_lookup hx
          obtain ⟨hshrinks, hkeeps⟩ := Writer.frame_of_call ⟨s.volume, a⟩ x.writer
          rw [step_act hx]
          refine ⟨fun j hj => lookup_insert_of_ne _ _ hj, ?_, ?_⟩
          · rw [hfile]
            exact hkeeps
          · rw [hfile, fileOf_of_lookup (lookup_insert_self _ _)]
            exact hshrinks
  | drop h =>
      obtain rfl : h = k := Option.some.inj ha
      cases hx : s.held.lookup h with
      | none =>
          simp only [step, hx]
          exact .refl s h
      | some x =>
          simp only [step, hx]
          refine ⟨fun j hj => lookup_erase_of_ne _ hj, ?_, Or.inl ?_⟩
          · rw [fileOf_of_lookup hx]
            exact Writer.keepsTo_drop s.volume x.writer
          · rw [fileOf, lookup_erase_self, Option.bind_none]
  | inspect h =>
      rw [snd_step_inspect]
      exact .refl s k
  | openNew | openChosen | createDirectory | remove | changeSettings | scratchDirectory
  | requireScratch => cases ha

/-! ### Steps in a row -/

/-- Steps that use writers leave the tree and the conditions alone, and the files that none of them
writes to. -/
theorem volume_after (hsteps : ∀ a ∈ steps, a.handle? ≠ none) :
    (s.after steps).volume.entries = s.volume.entries ∧
      (s.after steps).volume.workingDirectory = s.volume.workingDirectory ∧
      (s.after steps).volume.conditions = s.volume.conditions ∧
      ∀ id, (∀ h, s.fileOf h ≠ some id) →
        (s.after steps).volume.files[id]? = s.volume.files[id]? := by
  induction steps generalizing s with
  | nil => exact ⟨rfl, rfl, rfl, fun _ _ => rfl⟩
  | cons a rest ih =>
      obtain ⟨ha, hrest⟩ := List.forall_mem_cons.1 hsteps
      obtain ⟨k, hk⟩ := Option.ne_none_iff_exists'.1 ha
      have huses := s.uses_step hk
      obtain ⟨hentries, hdirectory, hconditions, hfiles⟩ := ih (s := (s.step a).2) hrest
      refine ⟨hentries.trans huses.keepsTo.entries_eq,
        hdirectory.trans huses.keepsTo.workingDirectory_eq,
        hconditions.trans huses.keepsTo.conditions_eq, fun id hid => ?_⟩
      exact (hfiles id fun h => huses.fileOf_ne (hid h)).trans (huses.keepsTo.file_eq id (hid k))

theorem HaveOwnFiles.after (hs : s.HaveOwnFiles) (hsteps : ∀ a ∈ steps, a.handle? ≠ none) :
    (s.after steps).HaveOwnFiles := by
  induction steps generalizing s with
  | nil => exact hs
  | cons a rest ih =>
      obtain ⟨ha, hrest⟩ := List.forall_mem_cons.1 hsteps
      obtain ⟨k, hk⟩ := Option.ne_none_iff_exists'.1 ha
      exact ih (hs.of_uses (s.uses_step hk)) hrest

end RecordLog.Session
