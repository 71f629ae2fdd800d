import RecordLog.Proofs.Session.Handles

/-!
# Options go their own ways

A buffered backing is told two sets of options. The set of its base says with which modes files and
directories are made, its own how much the writers hold back and how they sync. So two backings are
alike if the sets of their bases agree on the modes and their own sets on the rest: sessions with
the one and with the other cannot be told apart by any steps. A direct backing has one set for all
of this, and never looks at the capacity. How the scratch directory is made is not up to options.

## Main definitions

* `RecordLog.Options.MakesAlike` and `RecordLog.Options.WritesAlike`.
* `RecordLog.Backing.Alike`.
* `RecordLog.Session.observed`.

## Main results

* `RecordLog.Backing.Alike.newWriter_eq`, `RecordLog.Backing.Alike.createDirectory_eq` and
  `RecordLog.Backing.scratchDirectory_eq`.
* `RecordLog.Session.step_withBacking` and `RecordLog.Session.run_withBacking`.
* `RecordLog.Session.options_do_not_leak`.
-/

namespace RecordLog

/-! ### Options and backings -/

/-- Two sets of options say the same about how files and directories are made. -/
def Options.MakesAlike (o o' : Options) : Prop := o.fileMode = o'.fileMode ∧ o.dirMode = o'.dirMode

/-- Two sets of options say the same about how writers buffer and sync. -/
def Options.WritesAlike (o o' : Options) : Prop :=
  o.bufferCapacity = o'.bufferCapacity ∧ o.syncMetadata = o'.syncMetadata

namespace Backing

/-- Two backings are built in the same way, from options that agree on what each set is asked
for. -/
inductive Alike : Backing → Backing → Prop
  | direct {o o' : Options} (h : o.MakesAlike o') (hsync : o.syncMetadata = o'.syncMetadata) :
      Alike (.direct o) (.direct o')
  | buffered {base base' o o' : Options} (hbase : base.MakesAlike base') (h : o.WritesAlike o') :
      Alike (.buffered base o) (.buffered base' o')
  | forwarding {b b' : Backing} (h : Alike b b') : Alike (.forwarding b) (.forwarding b')
  | fixedLayout {b b' : Backing} (h : Alike b b') : Alike (.fixedLayout b) (.fixedLayout b')

variable {b b' : Backing}

theorem openFile_eq {o o' : Options} (h : o.MakesAlike o') (v : Volume) (p : Bytes) :
    openFile v o p = openFile v o' p := by
  rw [openFile, openFile, h.1]

/-- **Alike backings open alike**: the same file is made or emptied, and the writer is the same. -/
theorem Alike.newWriter_eq (h : b.Alike b') (v : Volume) (p : Bytes) :
    b.newWriter v p = b'.newWriter v p := by
  induction h with
  | direct h hsync => rw [newWriter, newWriter, openDirect, openDirect, openFile_eq h, hsync]
  | @buffered base base' o o' hbase h =>
      have hwriter (d : Descriptor) : bufferedWriter o p d = bufferedWriter o' p d := by
        rw [bufferedWriter, bufferedWriter, h.1, h.2]
      simp only [newWriter, openBuffered, openFile_eq hbase, hwriter]
  | forwarding _ ih => exact ih
  | fixedLayout _ ih => exact ih

/-- **Alike backings make directories alike.** -/
theorem Alike.createDirectory_eq (h : b.Alike b') (v : Volume) (p : Bytes) :
    b.createDirectory v p = b'.createDirectory v p := by
  induction h with
  | direct h _ => rw [createDirectory, createDirectory, h.2]
  | buffered hbase _ => rw [createDirectory, createDirectory, hbase.2]
  | forwarding _ ih => exact ih
  | fixedLayout _ _ => rfl

/-- All backings see to the scratch directory in the same way. -/
theorem scratchDirectory_eq (v : Volume) (p : Bytes) :
    (b : Backing) → b.scratchDirectory v p = scratchDirectory.make v p
  | .direct _ => rfl
  | .buffered _ _ => rfl
  | .forwarding inner => scratchDirectory_eq v p inner
  | .fixedLayout inner => scratchDirectory_eq v p inner

end Backing

/-! ### Sessions -/

namespace Session

/-- The same session with another backing. -/
def withBacking (s : Session) (b : Backing) : Session := { s with backing := b }

/-- What can be seen of a session: each answer, and after it the volume and how many bytes each
writer holds back. -/
def observed (s : Session) (steps : List Step) : List (Answer × Volume × List (String × Nat)) :=
  (s.run steps).map fun x =>
    (x.1, x.2.volume, x.2.held.map fun y => (y.1, y.2.writer.pending.length))

variable {b b' : Backing}

theorem hold_withBacking (s : Session) (b : Backing) (h : String) (inspected : Bool)
    (r : Except FileError (Volume × Writer)) :
    (s.withBacking b).hold h inspected r =
      ((s.hold h inspected r).1, (s.hold h inspected r).2.withBacking b) := by
  cases r <;> rfl

/-- **A step does not tell alike backings apart.** -/
theorem step_withBacking {s : Session} (hb : s.backing.Alike b) (a : Step) :
    (s.withBacking b).step a = ((s.step a).1, (s.step a).2.withBacking b) := by
  cases a with
  | openNew h p =>
      have hopen : (s.withBacking b).step (.openNew h p) =
          (s.withBacking b).hold h false (b.newWriter s.volume p) := rfl
      rw [hopen, ← hb.newWriter_eq, hold_withBacking]
      rfl
  | openChosen h p c readOnly => exact hold_withBacking s b h true (s.openAs p readOnly c)
  | act h a =>
      dsimp only [step, withBacking]
      cases s.held.lookup h with
      | none => rfl
      | some x =>
          dsimp only
          cases (a.apply s.volume x.writer).result <;> rfl
  | drop h =>
      dsimp only [step, withBacking]
      cases s.held.lookup h <;> rfl
  | inspect h =>
      dsimp only [step, withBacking]
      cases s.held.lookup h with
      | none => rfl
      | some x =>
          dsimp only
          cases x.writer <;> rfl
  | createDirectory p =>
      dsimp only [step, withBacking]
      rw [← hb.createDirectory_eq]
      cases s.backing.createDirectory s.volume p <;> rfl
  | remove p =>
      dsimp only [step, withBacking]
      cases s.volume.remove p <;> rfl
  | changeSettings x => rfl
  | scratchDirectory =>
      dsimp only [step, withBacking, scratch]
      rw [Backing.scratchDirectory_eq, Backing.scratchDirectory_eq]
      split <;> rfl
  | requireScratch =>
      dsimp only [step, withBacking, scratch]
      split <;> rfl

/-- **Nor do steps in a row**, at any moment. -/
theorem run_withBacking {s : Session} (hb : s.backing.Alike b) (steps : List Step) :
    (s.withBacking b).run steps = (s.run steps).map fun x => (x.1, x.2.withBacking b) := by
  induction steps generalizing s with
  | nil => rfl
  | cons a rest ih =>
      have hb' : (s.step a).2.backing.Alike b := by rwa [(s.step_keeps a).1]
      simp only [run, step_withBacking hb, ih hb', List.map_cons]

theorem observed_withBacking {s : Session} (hb : s.backing.Alike b) (steps : List Step) :
    (s.withBacking b).observed steps = s.observed steps := by
  rw [observed, run_withBacking hb, List.map_map]
  rfl

theorem observed_congr (s : Session) (hb : b.Alike b') (steps : List Step) :
    (s.withBacking b).observed steps = (s.withBacking b').observed steps :=
  (observed_withBacking (s := s.withBacking b) hb steps).symm

/-- **The two sets of options of a buffered backing do not leak into each other.** Let two buffered
backings be given whose bases agree on the modes of files and directories and whose own options
agree on how writers buffer and sync; whatever else the four sets of options say, the same steps on
the same volume have the same answers, leave the same volume after each of them, and as many bytes
held back by each writer. In the same way a direct backing does not depend on the capacity that it
is told. The base of a buffered backing is a direct backing with the options of the base, and makes
the files and directories that the buffered one makes. -/
theorem options_do_not_leak {base base' o o' : Options} (hbase : base.MakesAlike base')
    (ho : o.WritesAlike o') (s : Session) (steps : List Step) :
    (s.withBacking (.buffered base o)).observed steps =
        (s.withBacking (.buffered base' o')).observed steps ∧
      (∀ (q : Options) capacity,
        (s.withBacking (.direct { q with bufferCapacity := capacity })).observed steps =
          (s.withBacking (.direct q)).observed steps) ∧
      ∃ b, (Backing.buffered base o).base? = some b ∧
        (s.withBacking b).observed steps = (s.withBacking (.direct base)).observed steps ∧
        ∀ v p, (Backing.buffered base o).createDirectory v p = b.createDirectory v p ∧
          ((Backing.buffered base o).newWriter v p).map (·.1) = (b.newWriter v p).map (·.1) := by
  have hdirect (q : Options) (capacity : UInt64) :
      Backing.Alike (.direct { q with bufferCapacity := capacity }) (.direct q) :=
    .direct ⟨rfl, rfl⟩ rfl
  refine ⟨observed_congr s (.buffered hbase ho) steps,
    fun q capacity => observed_congr s (hdirect q capacity) steps, .direct base, rfl, rfl,
    fun v p => ⟨rfl, ?_⟩⟩
  rw [Backing.newWriter, Backing.newWriter, Backing.openBuffered, Backing.openDirect]
  cases Backing.openFile v base p <;> rfl

/-- Options of a base, and others that differ in all but the modes. -/
def privateFiles : Options × Options :=
  ({ bufferCapacity := 0, fileMode := 0o600, dirMode := 0o700 },
    { bufferCapacity := 9, fileMode := 0o600, dirMode := 0o700, syncMetadata := true })

/-- Options of a buffered backing, and others that differ in the modes. -/
def smallBuffers : Options × Options :=
  ({ bufferCapacity := 4 }, { bufferCapacity := 4, fileMode := 0, dirMode := 0o1777 })

/-- A file with more bytes appended than a small buffer holds, and a directory. -/
def spilling : List Step :=
  [.openNew "a" (Bytes.ofAscii "p"), .act "a" (.append [1, 2]), .act "a" (.append [3, 4, 5]),
    .createDirectory (Bytes.ofAscii "d"), .scratchDirectory]

/-- A session on a volume that fails to make the properties of files durable. -/
def unreliable : Session :=
  { volume := { Volume.empty with conditions := { fullSyncFails := true } }
    backing := .defaultDirect
    options := {}
    settings := { specific := none, general := none, temporary := Bytes.ofAscii "/tmp" } }

/-- The modes are those of the bases, and the buffer is full as the other options say. A sync does
not ask for more than these say, either, though a direct writer would with the options of a base. -/
theorem options_do_not_leak_spilling :
    privateFiles.1.MakesAlike privateFiles.2 ∧ smallBuffers.1.WritesAlike smallBuffers.2 ∧
      (unreliable.withBacking (.buffered privateFiles.1 smallBuffers.1)).observed spilling =
        (unreliable.withBacking (.buffered privateFiles.2 smallBuffers.2)).observed spilling ∧
      ((unreliable.withBacking (.buffered privateFiles.1 smallBuffers.1)).after
        spilling).volume.files = [⟨0o600, [1, 2]⟩] ∧
      ((unreliable.withBacking (.buffered privateFiles.1 smallBuffers.1)).after spilling).held.map
        (fun x => (x.1, x.2.writer.pending)) = [("a", [3, 4, 5])] ∧
      (((unreliable.withBacking (.buffered privateFiles.2 smallBuffers.2)).after spilling).step
        (.act "a" .sync)).1 = .done ∧
      (((unreliable.withBacking (.direct privateFiles.2)).after spilling).step
        (.act "a" .sync)).1 = .failed (.unsynced (Bytes.ofAscii "p") (.os Errno.inputOutput)) := by
  have hbase : privateFiles.1.MakesAlike privateFiles.2 := ⟨rfl, rfl⟩
  have ho : smallBuffers.1.WritesAlike smallBuffers.2 := ⟨rfl, rfl⟩
  exact ⟨hbase, ho, (options_do_not_leak hbase ho unreliable spilling).1, by decide, by decide,
    by decide, by decide⟩

end Session

end RecordLog
