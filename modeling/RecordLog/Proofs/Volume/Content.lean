import RecordLog.Volume.Descriptor
import Mathlib.Tactic.SplitIfs

/-!
# What a file holds

A descriptor that stands behind all that its file holds writes there and stands behind it again, if
there is room for what is written. Opening a regular file for writing gives such a descriptor on an
empty file, whether the file was made for it or was there before.

## Main definitions

* `RecordLog.Volume.content?` and `RecordLog.Descriptor.atEnd`.
* `RecordLog.Volume.CanHold` and `RecordLog.Volume.IsUnlimited`, for the room there is in files.
* `RecordLog.Volume.Conditions.synced`, how syncs of files are answered.
* `RecordLog.Volume.IsTruncated`.

## Main results

* `RecordLog.Volume.write_cases`, all that a write can do.
* `RecordLog.Volume.writeAll_induction`, from single writes to the writing of all bytes.
* `RecordLog.Volume.writeAll_atEnd`.
* `RecordLog.Volume.openToWrite_cases` and `RecordLog.Volume.isTruncated_of_openToWrite`.
-/

namespace RecordLog

/-- The descriptor for writing to a file behind a content. -/
def Descriptor.atEnd (id : Nat) (content : Bytes) : Descriptor :=
  { object := .file id, writable := true, offset := content.length }

namespace Volume

/-- What a file holds, if there is such a file. -/
def content? (v : Volume) (id : Nat) : Option Bytes := (v.files[id]?).map File.content

theorem content?_eq_some_iff {v : Volume} {id : Nat} {c : Bytes} :
    v.content? id = some c ↔ ∃ f, v.files[id]? = some f ∧ f.content = c := by
  rw [content?, Option.map_eq_some_iff]

theorem content?_setFile {v : Volume} {id : Nat} {f : File} (h : v.files[id]? = some f)
    (g : File) : (v.setFile id g).content? id = some g.content := by
  obtain ⟨hid, -⟩ := List.getElem?_eq_some_iff.1 h
  simp [content?, setFile, hid]

theorem content?_addFile (v : Volume) (l : Location) (f : File) :
    (v.addFile l f).content? v.files.length = some f.content := by
  simp [content?, addFile]

/-! ### Writing -/

/-- The files of a volume have room for so many bytes each. -/
def CanHold (v : Volume) (n : Nat) : Prop := ∀ limit ∈ v.conditions.sizeLimit, n ≤ limit

/-- The files of a volume have room for any number of bytes. -/
def IsUnlimited (v : Volume) : Prop := v.conditions.sizeLimit = none

theorem CanHold.mono {v : Volume} {m n : Nat} (h : v.CanHold n) (hle : m ≤ n) : v.CanHold m :=
  fun limit hlimit => Nat.le_trans hle (h limit hlimit)

theorem CanHold.congr {v v' : Volume} {n : Nat} (h : v.CanHold n)
    (hconditions : v'.conditions = v.conditions) : v'.CanHold n := by
  rwa [CanHold, hconditions]

theorem IsUnlimited.canHold {v : Volume} (h : v.IsUnlimited) (n : Nat) : v.CanHold n := by
  rw [CanHold, h]
  nofun

theorem Conditions.room_le (c : Conditions) (offset n : Nat) : c.room offset n ≤ n := by
  unfold Conditions.room
  split
  · exact Nat.le_refl n
  · exact Nat.min_le_left _ _

theorem CanHold.room_eq {v : Volume} {offset n : Nat} (h : v.CanHold (offset + n)) :
    v.conditions.room offset n = n := by
  unfold Conditions.room
  split
  · rfl
  · rename_i limit hlimit
    have hle := h limit hlimit
    omega

section Write

variable {v v' : Volume} {d d' : Descriptor} {data : Bytes} {n : Nat} {e : SystemError}

/-- A write that succeeds goes to a device that takes all, or puts bytes at the offset of a file, as
many as there is room for. -/
theorem write_cases (hdata : data ≠ []) (h : v.write d data = .ok (n, v', d')) :
    d.writable = true ∧
      ((d.object = .device .null ∧ n = data.length ∧ v' = v ∧ d' = d) ∨
        ∃ id f, d.object = .file id ∧ v.files[id]? = some f ∧ 0 < n ∧
          n = v.conditions.room d.offset data.length ∧
          v' = v.setFile id (f.changed (overwritten f.content d.offset (data.take n))) ∧
          d' = { d with offset := d.offset + n }) := by
  unfold write at h
  split at h
  · cases h
  rename_i hwritable
  refine ⟨by simpa using hwritable, ?_⟩
  split at h
  · cases h
  · cases h
  · rename_i hobject
    cases h
    exact Or.inl ⟨hobject, rfl, rfl, rfl⟩
  · rename_i id hobject
    split at h
    · cases h
    · rename_i f hf
      dsimp only at h
      split at h
      · cases h
      · rename_i hroom
        cases h
        exact Or.inr ⟨id, f, hobject, hf, Nat.pos_of_ne_zero hroom, rfl, rfl, rfl⟩

theorem write_pos (hdata : data ≠ []) (h : v.write d data = .ok (n, v', d')) : 0 < n := by
  obtain ⟨-, ⟨-, rfl, -⟩ | ⟨id, f, -, -, hpos, -⟩⟩ := write_cases hdata h
  · exact List.length_pos_iff.2 hdata
  · exact hpos

theorem write_le (hdata : data ≠ []) (h : v.write d data = .ok (n, v', d')) :
    n ≤ data.length := by
  obtain ⟨-, ⟨-, rfl, -⟩ | ⟨id, f, -, -, -, rfl, -⟩⟩ := write_cases hdata h
  · exact Nat.le_refl _
  · exact v.conditions.room_le _ _

theorem conditions_write (hdata : data ≠ []) (h : v.write d data = .ok (n, v', d')) :
    v'.conditions = v.conditions := by
  obtain ⟨-, ⟨-, -, rfl, -⟩ | ⟨id, f, -, -, -, -, rfl, -⟩⟩ := write_cases hdata h <;> rfl

/-- Without a limit a write takes all bytes. -/
theorem IsUnlimited.write_eq (hv : v.IsUnlimited) (hdata : data ≠ [])
    (h : v.write d data = .ok (n, v', d')) : n = data.length := by
  obtain ⟨-, ⟨-, hn, -⟩ | ⟨id, f, -, -, -, hn, -⟩⟩ := write_cases hdata h
  · exact hn
  · rw [hn, (hv.canHold _).room_eq]

/-! ### Writing until all is written -/

/-- How often one may write does not matter, as long as it is as often as there are bytes. -/
theorem writeIn_eq {k k' : Nat} (hk : data.length ≤ k) (hk' : data.length ≤ k') :
    v.writeIn d data k = v.writeIn d data k' := by
  induction k generalizing v d data k' with
  | zero =>
      obtain rfl : data = [] := List.length_eq_zero_iff.1 (Nat.le_zero.1 hk)
      cases k' <;> rfl
  | succ k ih =>
      by_cases hdata : data = []
      · subst hdata
        cases k' <;> rfl
      · have hpos : 0 < data.length := List.length_pos_iff.2 hdata
        obtain ⟨k', rfl⟩ : ∃ j, k' = j + 1 := ⟨k' - 1, by omega⟩
        simp only [writeIn, hdata, if_false]
        cases hwrite : v.write d data with
        | error e => rfl
        | ok r =>
            have hn := write_pos hdata hwrite
            refine ih ?_ ?_ <;> rw [List.length_drop] <;> omega

@[simp] theorem writeAll_nil (v : Volume) (d : Descriptor) :
    v.writeAll d [] = ⟨.ok (), [], v, d⟩ := rfl

theorem writeAll_of_error (hdata : data ≠ []) (h : v.write d data = .error e) :
    v.writeAll d data = ⟨.error e, data, v, d⟩ := by
  obtain ⟨k, hk⟩ : ∃ k, data.length = k + 1 :=
    Nat.exists_eq_succ_of_ne_zero (mt List.length_eq_zero_iff.1 hdata)
  simp [writeAll, hk, writeIn, hdata, h]

/-- After a write comes the write of what it has left. -/
theorem writeAll_of_write (hdata : data ≠ []) (h : v.write d data = .ok (n, v', d')) :
    v.writeAll d data = v'.writeAll d' (data.drop n) := by
  obtain ⟨k, hk⟩ : ∃ k, data.length = k + 1 :=
    Nat.exists_eq_succ_of_ne_zero (mt List.length_eq_zero_iff.1 hdata)
  have hn := write_pos hdata h
  have hfirst : v.writeAll d data = v'.writeIn d' (data.drop n) k := by
    simp [writeAll, hk, writeIn, hdata, h]
  rw [hfirst, writeAll]
  refine writeIn_eq ?_ (Nat.le_refl _)
  rw [List.length_drop]
  omega

/-- What holds when nothing is left or a write fails, and for a write if it holds for what comes
after it, holds whenever bytes are written. -/
theorem writeAll_induction {motive : Volume → Descriptor → Bytes → Written → Prop}
    (nil : ∀ v d, motive v d [] ⟨.ok (), [], v, d⟩)
    (error : ∀ {v d data e}, data ≠ [] → v.write d data = .error e →
      motive v d data ⟨.error e, data, v, d⟩)
    (write : ∀ {v v' d d' data n}, data ≠ [] → v.write d data = .ok (n, v', d') →
      motive v' d' (data.drop n) (v'.writeAll d' (data.drop n)) →
      motive v d data (v'.writeAll d' (data.drop n)))
    (v : Volume) (d : Descriptor) (data : Bytes) : motive v d data (v.writeAll d data) := by
  induction hk : data.length using Nat.strongRecOn generalizing v d data with
  | ind k ih =>
      by_cases hdata : data = []
      · subst hdata
        exact nil v d
      · have hpos : 0 < data.length := List.length_pos_iff.2 hdata
        cases hwrite : v.write d data with
        | error e =>
            rw [writeAll_of_error hdata hwrite]
            exact error hdata hwrite
        | ok r =>
            obtain ⟨n, v', d'⟩ := r
            have hn := write_pos hdata hwrite
            rw [writeAll_of_write hdata hwrite]
            refine write hdata hwrite (ih (data.drop n).length ?_ v' d' _ rfl)
            rw [List.length_drop]
            omega

theorem conditions_writeAll (v : Volume) (d : Descriptor) (data : Bytes) :
    (v.writeAll d data).volume.conditions = v.conditions :=
  writeAll_induction (motive := fun v _ _ r => r.volume.conditions = v.conditions)
    (fun _ _ => rfl) (fun _ _ => rfl)
    (fun hdata hwrite ih => ih.trans (conditions_write hdata hwrite)) v d data

/-- **With room for them, bytes come behind what a file holds**, and the descriptor behind them. -/
theorem writeAll_atEnd {id : Nat} {c : Bytes} (hc : v.content? id = some c)
    (hroom : v.CanHold (c ++ data).length) :
    ∃ v', v.writeAll (.atEnd id c) data = ⟨.ok (), [], v', .atEnd id (c ++ data)⟩ ∧
      v'.content? id = some (c ++ data) ∧ v'.conditions = v.conditions := by
  by_cases hdata : data = []
  · subst hdata
    exact ⟨v, by rw [writeAll_nil, List.append_nil], by rwa [List.append_nil], rfl⟩
  obtain ⟨f, hf, rfl⟩ := content?_eq_some_iff.1 hc
  rw [List.length_append] at hroom
  have hpos : data.length ≠ 0 := mt List.length_eq_zero_iff.1 hdata
  have hwrite : v.write (.atEnd id f.content) data =
      .ok (data.length, v.setFile id (f.changed (f.content ++ data)),
        .atEnd id (f.content ++ data)) := by
    simp [write, Descriptor.atEnd, hf, hdata, hroom.room_eq, hpos, overwritten_length]
  rw [writeAll_of_write hdata hwrite, List.drop_length, writeAll_nil]
  exact ⟨_, rfl, content?_setFile hf _, rfl⟩

end Write

/-! ### Syncing -/

/-- How syncs of regular files are answered, with the properties of the files or without. -/
def Conditions.synced (c : Conditions) (metadata : Bool) : Except SystemError Unit :=
  if (if metadata then c.fullSyncFails else c.dataSyncFails) then .error (.os Errno.inputOutput)
  else .ok ()

theorem sync_atEnd (v : Volume) (metadata : Bool) (id : Nat) (c : Bytes) :
    (if metadata then v.syncAll (.atEnd id c) else v.syncData (.atEnd id c)) =
      v.conditions.synced metadata := by
  cases metadata <;> rfl

/-! ### Opening -/

/-- What opening a path for writing comes to: at the name where it leads, a file is made, a file
loses what it holds, or there is a device. -/
theorem openToWrite_cases {v v' : Volume} {p : Bytes} {asked : Mode} {d : Descriptor}
    (h : v.openToWrite p asked = .ok (v', d)) :
    ∃ dir n, v.locate .target p = .ok (.name dir n false) ∧ n.length ≤ maxName ∧
      ((v.entry? (dir ++ [n]) = none ∧ v.canAlter dir = true ∧
          v' = v.addFile (dir ++ [n]) ⟨fileMode v.conditions.umask asked, []⟩ ∧
          d = .atEnd v.files.length []) ∨
        (∃ id f, v.entry? (dir ++ [n]) = some (.file id) ∧ v.files[id]? = some f ∧
          allows f.mode .write = true ∧ v' = v.setFile id (f.changed []) ∧ d = .atEnd id []) ∨
        ∃ dev, v.entry? (dir ++ [n]) = some (.device dev) ∧ v' = v ∧
          d = { object := .device dev, writable := true }) := by
  unfold openToWrite at h
  split at h
  · cases h
  · cases h
  · rename_i dir n slashed hlocate
    by_cases hslashed : slashed = true
    · rw [if_pos hslashed] at h
      cases h
    rw [if_neg hslashed] at h
    rw [Bool.not_eq_true] at hslashed
    subst hslashed
    by_cases hlong : maxName < n.length
    · rw [if_pos hlong] at h
      cases h
    rw [if_neg hlong] at h
    refine ⟨dir, n, hlocate, Nat.le_of_not_lt hlong, ?_⟩
    split at h
    · rename_i hentry
      split_ifs at h with hmay
      cases h
      exact Or.inl ⟨hentry, hmay, rfl, rfl⟩
    · rename_i id hentry
      split at h
      · rename_i f hf
        split_ifs at h with hmay
        cases h
        exact Or.inr (Or.inl ⟨id, f, hentry, hf, hmay, rfl, rfl⟩)
      · cases h
    · rename_i dev hentry
      cases h
      exact Or.inr (Or.inr ⟨dev, hentry, rfl, rfl⟩)
    · cases h
    · cases h

/-- A descriptor is at the start of a regular file that holds nothing. -/
def IsTruncated (v : Volume) (d : Descriptor) (id : Nat) : Prop :=
  d = .atEnd id [] ∧ v.content? id = some []

/-- A regular file that has been opened for writing holds nothing any more. -/
theorem isTruncated_of_openToWrite {v v' : Volume} {p : Bytes} {asked : Mode} {d : Descriptor}
    {id : Nat} (h : v.openToWrite p asked = .ok (v', d)) (hd : d.object = .file id) :
    v'.IsTruncated d id := by
  obtain ⟨dir, n, -, -, ⟨-, -, rfl, rfl⟩ | ⟨id', f, -, hf, -, rfl, rfl⟩ | ⟨dev, -, rfl, rfl⟩⟩ :=
    openToWrite_cases h
  · cases hd
    exact ⟨rfl, content?_addFile _ _ _⟩
  · cases hd
    exact ⟨rfl, content?_setFile hf _⟩
  · cases hd

end Volume

end RecordLog
