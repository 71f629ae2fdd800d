import RecordLog.Proofs.Volume.Writing

/-!
# What is left alone

Opening a file and writing to it change what that file holds and nothing that another one holds.
Making directories and removing entries changes what no file holds.

## Main definitions

* `RecordLog.Descriptor.file?`, the regular file that can be written to.
* `RecordLog.Volume.KeepsTo`.

## Main results

* `RecordLog.Volume.content?_openToWrite` and `RecordLog.Volume.Writes.frame`.
* `RecordLog.Volume.makeDirectoryChain_induction`, for what each new directory preserves.
* `RecordLog.Volume.files_makeDirectory`, `RecordLog.Volume.files_makeDirectories` and
  `RecordLog.Volume.files_remove`.
-/

namespace RecordLog

/-- The regular file that can be written to through a descriptor. -/
def Descriptor.file? (d : Descriptor) : Option Nat :=
  match d.object, d.writable with
  | .file id, true => some id
  | _, _ => none

theorem Descriptor.file?_eq_some_iff {d : Descriptor} {id : Nat} :
    d.file? = some id ↔ d.object = .file id ∧ d.writable = true := by
  obtain ⟨object, writable, offset⟩ := d
  cases object <;> cases writable <;> simp [file?]

attribute [ext] Volume

namespace Volume

variable {v v' : Volume} {d d' : Descriptor} {id : Nat} {p x : Bytes}

/-! ### Files -/

theorem content?_setFile_of_ne {id' : Nat} (h : id' ≠ id) (v : Volume) (f : File) :
    (v.setFile id' f).content? id = v.content? id := by
  simp [content?, setFile, h]

theorem content?_addFile_of_ne (v : Volume) (l : Location) (f : File) (h : v.files.length ≠ id) :
    (v.addFile l f).content? id = v.content? id := by
  have hfiles : (v.files ++ [f])[id]? = v.files[id]? := by
    rcases Nat.lt_or_gt_of_ne h with hlt | hgt
    · have hlength : (v.files ++ [f]).length ≤ id := by
        rw [List.length_append, List.length_singleton]
        omega
      rw [List.getElem?_eq_none hlength, List.getElem?_eq_none (Nat.le_of_lt hlt)]
    · exact List.getElem?_append_left hgt
  rw [content?, content?, ← hfiles]
  rfl

/-- Opening a path leaves what other files hold. -/
theorem content?_openToWrite {asked : Mode} (h : v.openToWrite p asked = .ok (v', d))
    (hd : d.file? ≠ some id) : v'.content? id = v.content? id := by
  obtain ⟨dir, n, -, -, ⟨-, -, rfl, rfl⟩ | ⟨id', f, -, -, -, rfl, rfl⟩ | ⟨dev, -, rfl, rfl⟩⟩ :=
    openToWrite_cases h
  · exact content?_addFile_of_ne _ _ _ fun hid => hd (congrArg some hid)
  · exact content?_setFile_of_ne (fun hid => hd (congrArg some hid)) _ _
  · rfl

theorem writable_reader {m : Mode} {o : Descriptor.Object} (h : reader m o = .ok d) :
    d.writable = false := by
  unfold reader at h
  split at h <;> cases h
  rfl

/-- Nothing can be written to a path that was opened to read from it. -/
theorem writable_openToRead (h : v.openToRead p = .ok d) : d.writable = false := by
  unfold openToRead at h
  split at h
  · cases h
  · exact writable_reader h
  split at h
  · cases h
  split at h
  · cases h
  · split at h
    · exact writable_reader h
    · cases h
  · cases h
    rfl
  · exact writable_reader h
  · cases h

theorem file?_openToRead (h : v.openToRead p = .ok d) : d.file? = none := by
  refine Option.eq_none_iff_forall_ne_some.2 fun id hid => ?_
  have hwritable := (Descriptor.file?_eq_some_iff.1 hid).2
  rw [writable_openToRead h] at hwritable
  cases hwritable

/-- A volume after changes to one file at most, if one is named: the tree, the conditions and all
other files are as they were. -/
structure KeepsTo (o : Option Nat) (v v' : Volume) : Prop where
  entries_eq : v'.entries = v.entries
  workingDirectory_eq : v'.workingDirectory = v.workingDirectory
  conditions_eq : v'.conditions = v.conditions
  file_eq : ∀ id, o ≠ some id → v'.files[id]? = v.files[id]?

theorem KeepsTo.refl (o : Option Nat) (v : Volume) : KeepsTo o v v :=
  ⟨rfl, rfl, rfl, fun _ _ => rfl⟩

theorem KeepsTo.trans {o : Option Nat} {v₁ : Volume} (h : KeepsTo o v v₁) (h' : KeepsTo o v₁ v') :
    KeepsTo o v v' where
  entries_eq := h'.entries_eq.trans h.entries_eq
  workingDirectory_eq := h'.workingDirectory_eq.trans h.workingDirectory_eq
  conditions_eq := h'.conditions_eq.trans h.conditions_eq
  file_eq id hid := (h'.file_eq id hid).trans (h.file_eq id hid)

theorem KeepsTo.content?_eq {o : Option Nat} (h : KeepsTo o v v') (hid : o ≠ some id) :
    v'.content? id = v.content? id := by
  rw [content?, content?, h.file_eq id hid]

theorem keepsTo_setFile (v : Volume) (id : Nat) (f : File) :
    KeepsTo (some id) v (v.setFile id f) where
  entries_eq := rfl
  workingDirectory_eq := rfl
  conditions_eq := rfl
  file_eq _ hid := List.getElem?_set_ne (fun h => hid (congrArg some h))

/-- A write keeps to the file of its descriptor. -/
theorem frame_of_write {n : Nat} (hx : x ≠ []) (h : v.write d x = .ok (n, v', d')) :
    d'.file? = d.file? ∧ v.KeepsTo d.file? v' := by
  obtain ⟨hwritable, ⟨-, -, rfl, rfl⟩ | ⟨id, f, hobject, -, -, -, rfl, rfl⟩⟩ := write_cases hx h
  · exact ⟨rfl, .refl _ _⟩
  · rw [Descriptor.file?_eq_some_iff.2 ⟨hobject, hwritable⟩]
    exact ⟨Descriptor.file?_eq_some_iff.2 ⟨hobject, hwritable⟩, keepsTo_setFile _ _ _⟩

/-- **Writes in a row keep to the file of their descriptor.** -/
theorem Writes.frame (h : Writes v d x v' d') : d'.file? = d.file? ∧ v.KeepsTo d.file? v' := by
  induction h with
  | nil => exact ⟨rfl, .refl _ _⟩
  | cons hdata hwrite _ ih =>
      obtain ⟨hfile, hrest⟩ := ih
      obtain ⟨hfile₁, hpiece⟩ := frame_of_write hdata hwrite
      rw [hfile₁] at hrest
      exact ⟨hfile.trans hfile₁, hpiece.trans hrest⟩

/-! ### Directories and removal -/

theorem files_makeDirectory {asked : Mode} (h : v.makeDirectory p asked = .ok v') :
    v'.files = v.files := by
  unfold makeDirectory at h
  split at h
  · cases h
  · cases h
  split at h
  · cases h
  split at h
  · cases h
  split at h <;> cases h
  rfl

/-- What one directory of several comes to: it is made, or there is one already, or it can not be
made. -/
theorem make_cases {r : Except SystemError Unit × Volume}
    (h : makeDirectoryChain.make v p = .inl r) :
    (∃ v', v.makeDirectory p defaultDirectoryMode = .ok v' ∧ r = (.ok (), v')) ∨
      (v.isDirectory p = true ∧ r = (.ok (), v)) ∨
      ∃ e, v.makeDirectory p defaultDirectoryMode = .error e ∧ r = (.error e, v) := by
  unfold makeDirectoryChain.make at h
  split at h
  · rename_i v' hmade
    cases h
    exact Or.inl ⟨v', hmade, rfl⟩
  · rename_i e hmade
    split at h
    · cases h
    · split at h <;> cases h
      · exact Or.inr (Or.inl ⟨‹_›, rfl⟩)
      · exact Or.inr (Or.inr ⟨e, hmade, rfl⟩)

/-- What each directory that is made preserves, several made in a row preserve. -/
theorem makeDirectoryChain_induction {motive : Volume → Prop}
    (hmade : ∀ {v v' p}, v.makeDirectory p defaultDirectoryMode = .ok v' → motive v → motive v')
    (ps : List Bytes) (hv : motive v) : motive (v.makeDirectoryChain ps).2 := by
  have hmake {v : Volume} {p : Bytes} {r : Except SystemError Unit × Volume} (hv : motive v)
      (h : makeDirectoryChain.make v p = .inl r) : motive r.2 := by
    obtain ⟨v', hdone, rfl⟩ | ⟨-, rfl⟩ | ⟨e, -, rfl⟩ := make_cases h
    · exact hmade hdone hv
    · exact hv
    · exact hv
  induction ps with
  | nil => exact hv
  | cons p above ih =>
      unfold makeDirectoryChain
      split
      · rename_i r h
        exact hmake hv h
      · split
        · rename_i h
          rwa [h] at ih
        · rename_i v' h
          rw [h] at ih
          split
          · rename_i r h'
            exact hmake ih h'
          · exact ih

theorem files_makeDirectories (v : Volume) (p : Bytes) :
    (v.makeDirectories p).2.files = v.files :=
  makeDirectoryChain_induction (motive := fun w => w.files = v.files)
    (fun hmade hv => (files_makeDirectory hmade).trans hv) _ rfl

theorem files_remove (h : v.remove p = .ok v') : v'.files = v.files := by
  unfold remove at h
  split at h
  · cases h
  · cases h
  split at h
  · cases h
  split at h
  · cases h
  split at h
  · cases h
  split at h
  · cases h
  split at h <;> cases h
  rfl

end Volume

end RecordLog
