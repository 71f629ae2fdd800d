import RecordLog.Proofs.Session.Growth
import RecordLog.Proofs.Session.Reporting
import RecordLog.Proofs.Volume.Leading

/-!
# What creation touches

To open a path with a new writer and to make a directory are done as a whole or not at all. What is
done stays with one entry: a file that is there loses what it holds, or an empty file or directory
is added. A file that is emptied keeps its mode but for the bits that the system takes from it: the
set-user bit, and the set-group bit if the group may execute the file. This is so for a process
without the privilege to keep these bits, which is what all of this is about. A directory that has
been made is in the way of another one at its path as long as nothing is removed.

## Main definitions

* `RecordLog.Volume.KeepsMode`, what becomes of the mode of a file that is emptied.
* `RecordLog.Volume.AddsOnly` and `RecordLog.Volume.OpensOne`.

## Main results

* `RecordLog.Volume.opensOne_of_openToWrite`.
* `RecordLog.Session.creation_touches_one_entry`.
-/

namespace RecordLog

namespace Volume

variable {v v' : Volume} {p : Bytes} {asked : Mode}

/-! ### Modes of files that are emptied -/

/-- The bit by which a file is run as its owner. -/
def setUser : Mode := 0o4000

/-- A mode is kept but for the set-user bit, which is lost, and the set-group bit, which is lost if
the group may execute. -/
structure KeepsMode (m m' : Mode) : Prop where
  and_eq : m' &&& 0o1777 = m &&& 0o1777
  setUser_eq : m' &&& setUser = 0
  setGroup_eq : m' &&& setGroup = if m &&& groupExecute = 0 then m &&& setGroup else 0
  eq_self : m &&& 0o1777 = m → m' = m

theorem keepsMode_modeAfterChange (m : Mode) : KeepsMode m (modeAfterChange m) where
  and_eq := by
    rw [modeAfterChange]
    split_ifs <;> rw [Nat.and_assoc] <;> rfl
  setUser_eq := by
    rw [modeAfterChange]
    split_ifs <;> rw [Nat.and_assoc] <;> exact Nat.and_zero m
  setGroup_eq := by
    rw [modeAfterChange]
    split_ifs <;> rw [Nat.and_assoc]
    · rfl
    · exact Nat.and_zero m
  eq_self h := by
    rw [modeAfterChange, ← h]
    split_ifs <;> rw [Nat.and_assoc] <;> rfl

/-! ### What is added or emptied -/

/-- One entry is added where there was none, and all others are as before. -/
structure AddsOnly (v : Volume) (l : Location) (e : Entry) (v' : Volume) : Prop where
  was_free : v.entry? l = none
  entry_eq : v'.entry? l = some e
  others_eq : ∀ l', l' ≠ l → v'.entry? l' = v.entry? l'
  workingDirectory_eq : v'.workingDirectory = v.workingDirectory
  conditions_eq : v'.conditions = v.conditions

/-- What opening a path to write to it changes. -/
inductive OpensOne (v : Volume) (p : Bytes) (asked : Mode) (v' : Volume) : Prop
  /-- The file to which the path leads has lost what it held, and no other one has changed. -/
  | emptied {dir : Location} {n : Name} (hplace : v.locate .target p = .ok (.name dir n false))
      {id : Nat} (hentry : v.entry? (dir ++ [n]) = some (.file id)) {f : File}
      (hfile : v.files[id]? = some f) (hkeeps : v.KeepsTo (some id) v') {m : Mode}
      (hmode : KeepsMode f.mode m) (hempty : v'.files[id]? = some ⟨m, []⟩)
  /-- An empty file has been added where the path leads, and no other one has changed. -/
  | made {dir : Location} {n : Name} (hplace : v.locate .target p = .ok (.name dir n false))
      (hadds : v.AddsOnly (dir ++ [n]) (.file v.files.length) v')
      (hfiles : v'.files = v.files ++ [⟨fileMode v.conditions.umask asked, []⟩])
  /-- There is a device, and nothing has changed. -/
  | device {dir : Location} {n : Name} (hplace : v.locate .target p = .ok (.name dir n false))
      {d : Device} (hentry : v.entry? (dir ++ [n]) = some (.device d)) (hsame : v' = v)

theorem addsOnly_addEntry {l : Location} (h : v.entry? l = none) (e : Entry) :
    v.AddsOnly l e (v.addEntry l e) where
  was_free := h
  entry_eq := entry?_addEntry_self h e
  others_eq _ hne := entry?_addEntry_of_ne hne v e
  workingDirectory_eq := rfl
  conditions_eq := rfl

theorem addsOnly_addFile {l : Location} (h : v.entry? l = none) (f : File) :
    v.AddsOnly l (.file v.files.length) (v.addFile l f) where
  was_free := h
  entry_eq := entry?_addEntry_self h (.file v.files.length)
  others_eq _ hne := entry?_addEntry_of_ne hne v (.file v.files.length)
  workingDirectory_eq := rfl
  conditions_eq := rfl

/-- **To open a path is to empty one file, or to add one.** -/
theorem opensOne_of_openToWrite {d : Descriptor} (h : v.openToWrite p asked = .ok (v', d)) :
    v.OpensOne p asked v' := by
  obtain ⟨dir, n, hplace, -, ⟨hnone, -, rfl, -⟩ | ⟨id, f, hentry, hf, -, rfl, -⟩ |
    ⟨dev, hentry, rfl, -⟩⟩ := openToWrite_cases h
  · exact .made hplace (addsOnly_addFile hnone _) rfl
  · obtain ⟨hid, -⟩ := List.getElem?_eq_some_iff.1 hf
    refine .emptied hplace hentry hf (keepsTo_setFile v id _)
      (keepsMode_modeAfterChange f.mode) ?_
    simp [setFile, File.changed, hid]
  · exact .device hplace hentry rfl

end Volume

/-! ### Steps that create -/

namespace Session

variable {s : Session} {p : Bytes} {h : String}

theorem step_openNew_cases (s : Session) (h : String) (p : Bytes) :
    (∃ e, s.step (.openNew h p) = (.failed e, s)) ∨
      ∃ v w, s.backing.newWriter s.volume p = .ok (v, w) ∧
        s.step (.openNew h p) =
          (.done, { s with volume := giveUp v h s.held, held := insert h ⟨w, false⟩ s.held }) := by
  rw [step]
  cases hnew : s.backing.newWriter s.volume p with
  | error e => exact Or.inl ⟨e, rfl⟩
  | ok r => exact Or.inr ⟨r.1, r.2, rfl, rfl⟩

/-- Where there is a directory, no backing makes one. -/
theorem createDirectory_eq_error {v : Volume} {l : Volume.Location} (hv : v.Leads p l) :
    (b : Backing) → ∃ e, b.createDirectory v p = .error e ∧
      (b.IsPlain → e = .refused p (.os Errno.entryExists))
  | .direct o => ⟨_, by rw [Backing.createDirectory, hv.makeDirectory_eq]; rfl, fun _ => rfl⟩
  | .buffered base o =>
      ⟨_, by rw [Backing.createDirectory, hv.makeDirectory_eq]; rfl, fun _ => rfl⟩
  | .forwarding inner => createDirectory_eq_error hv inner
  | .fixedLayout inner => ⟨.fixedLayout p, rfl, False.elim⟩

/-- An entry that exists is reported with a code for that, and the path. -/
theorem status_entryExists (p : Bytes) :
    (FileError.refused p (.os Errno.entryExists)).status =
      .new .alreadyExists (FileError.rendered p) [] := by
  rw [FileError.status]
  rfl

/-- **To create is to touch one entry or nothing.** Let a session have any volume that is a tree and
any writers, and let a path be opened with a new writer or given for a directory. What fails leaves
the session as it was. A writer that is opened leaves the others as they were; the file to which its
path leads is emptied, or an empty one is added there. A directory that is made is empty and the
only entry that is new, at the place of its path. After this, whatever is done through whatever
backings, as long as nothing is removed, no backing makes a directory with that path again: those
that make directories report that there is one. -/
theorem creation_touches_one_entry (hs : s.volume.IsTree) (p : Bytes) :
    (∀ h, (s.step (.openNew h p)).1 ≠ .done → (s.step (.openNew h p)).2 = s) ∧
      ((s.step (.createDirectory p)).1 ≠ .done → (s.step (.createDirectory p)).2 = s) ∧
      (∀ h, s.held.lookup h = none → (s.step (.openNew h p)).1 = .done →
        (∀ k, k ≠ h → (s.step (.openNew h p)).2.held.lookup k = s.held.lookup k) ∧
          s.volume.OpensOne p s.backing.making.fileMode.toNat
            (s.step (.openNew h p)).2.volume) ∧
      ((s.step (.createDirectory p)).1 = .done →
        ∃ l m v, (s.step (.createDirectory p)).2 = { s with volume := v } ∧ v.Leads p l ∧
          s.volume.AddsOnly l (.directory m) v ∧ v.files = s.volume.files ∧
          (∀ ns, ns ≠ [] → v.entry? (l ++ ns) = none) ∧
          ∀ calls, (s.step (.createDirectory p)).2.RemovesNothing calls → ∀ b, ∃ e,
            (((s.step (.createDirectory p)).2.afterThrough calls).through b
              (.createDirectory p)).1 = .failed e ∧
            (b.IsPlain → e.status = .new .alreadyExists (FileError.rendered p) [])) := by
  refine ⟨fun h hfailed => ?_, fun hfailed => ?_, fun h hfresh hdone => ?_, fun hdone => ?_⟩
  · obtain ⟨e, hstep⟩ | ⟨v, w, -, hstep⟩ := s.step_openNew_cases h p
    · rw [hstep]
    · rw [hstep] at hfailed
      exact absurd rfl hfailed
  · obtain ⟨e, hstep⟩ | ⟨v, -, hstep⟩ := s.step_createDirectory_cases p
    · rw [hstep]
    · rw [hstep] at hfailed
      exact absurd rfl hfailed
  · obtain ⟨e, hstep⟩ | ⟨v, w, hnew, hstep⟩ := s.step_openNew_cases h p
    · rw [hstep] at hdone
      cases hdone
    · obtain ⟨d, hopen, -⟩ := Backing.newWriter_cases s.backing hnew
      rw [hstep]
      refine ⟨fun k hk => lookup_insert_of_ne _ _ hk, ?_⟩
      have hgiveUp : giveUp v h s.held = v := by rw [giveUp, hfresh]
      dsimp only
      rw [hgiveUp]
      exact Volume.opensOne_of_openToWrite hopen
  · obtain ⟨e, hstep⟩ | ⟨v, hmade, hstep⟩ := s.step_createDirectory_cases p
    · rw [hstep] at hdone
      cases hdone
    · obtain ⟨dir, n, hnone, -, hadded, hleads⟩ := Volume.leads_of_makeDirectory hmade
      have hadds := Volume.addsOnly_addEntry hnone (.directory (Volume.directoryMode
        s.volume.conditions.umask s.backing.making.dirMode.toNat (s.volume.modeOfDirectory dir)))
      rw [← hadded] at hadds
      rw [hstep]
      refine ⟨_, _, v, rfl, hleads, hadds, Volume.files_makeDirectory hmade, fun ns hns => ?_,
        fun calls hcalls b => ?_⟩
      · rw [hadds.others_eq _ (by simp [hns])]
        exact hs.entry?_append_eq_none hnone ns
      · obtain ⟨e, he, hplain⟩ :=
          createDirectory_eq_error (hleads.mono (growsTo_afterThrough hcalls)) b
        refine ⟨e, ?_, fun hb => by rw [hplain hb, status_entryExists]⟩
        simp only [through, step, withBacking, he]

/-- A volume with a directory, a link to it, and a link to a file in it that is missing. -/
def crossroads : Volume :=
  .furnished [⟨Bytes.ofAscii "d", .directory, some 0o750⟩,
    ⟨Bytes.ofAscii "l", .symlink (Bytes.ofAscii "d"), none⟩,
    ⟨Bytes.ofAscii "m", .symlink (Bytes.ofAscii "l/new"), none⟩]

/-- A session with a writer that holds bytes back. -/
def atCrossroads : Session :=
  { volume := crossroads
    backing := .forwarding (.buffered { fileMode := 0o666 } {})
    options := {}
    settings := ⟨some (Bytes.ofAscii "scratch"), none, []⟩
    held := [("a", ⟨.buffered ⟨Bytes.ofAscii "n", 8, some ⟨⟨.device .null, true, 0⟩, [1, 2]⟩,
      false⟩, false⟩)] }

/-- A file is opened, and a directory is made in another one. -/
def belowCrossroads : List (Backing × Step) :=
  [(.defaultDirect, .openNew "c" (Bytes.ofAscii "m")),
    (.defaultDirect, .createDirectory (Bytes.ofAscii "l/x/y"))]

/-- A file is made where a link leads that led nowhere, and a directory through a link. Another one
is not made there later. -/
theorem creation_touches_one_entry_links :
    atCrossroads.volume.IsTree ∧ atCrossroads.held.lookup "b" = none ∧
      (atCrossroads.step (.openNew "b" (Bytes.ofAscii "m"))).1 = .done ∧
      (atCrossroads.step (.openNew "b" (Bytes.ofAscii "m"))).2.volume.files = [⟨0o644, []⟩] ∧
      (atCrossroads.step (.openNew "b" (Bytes.ofAscii "m"))).2.held.lookup "a" =
        atCrossroads.held.lookup "a" ∧
      (atCrossroads.step (.createDirectory (Bytes.ofAscii "l/x"))).1 = .done ∧
      ∃ e, (((atCrossroads.step (.createDirectory (Bytes.ofAscii "l/x"))).2.afterThrough
          belowCrossroads).through .defaultBuffered
            (.createDirectory (Bytes.ofAscii "l/x"))).1 = .failed e ∧
        e.status = .new .alreadyExists (FileError.rendered (Bytes.ofAscii "l/x")) [] := by
  have htree : atCrossroads.volume.IsTree := Volume.isTree_furnished _
  have hfresh : atCrossroads.held.lookup "b" = none := rfl
  have hopened : (atCrossroads.step (.openNew "b" (Bytes.ofAscii "m"))).1 = .done := by decide
  have hmade : (atCrossroads.step (.createDirectory (Bytes.ofAscii "l/x"))).1 = .done := by decide
  obtain ⟨-, -, hopen, -⟩ := creation_touches_one_entry htree (Bytes.ofAscii "m")
  obtain ⟨-, -, -, hcreate⟩ := creation_touches_one_entry htree (Bytes.ofAscii "l/x")
  obtain ⟨l, m, v, -, -, -, -, -, hlater⟩ := hcreate hmade
  obtain ⟨e, he, hreport⟩ := hlater belowCrossroads
    ⟨(fun p hp => nomatch hp), (fun p hp => nomatch hp), trivial⟩ .defaultBuffered
  exact ⟨htree, hfresh, hopened, by decide, (hopen "b" hfresh hopened).1 "a" (by decide),
    hmade, e, he, hreport trivial⟩

/-- A volume with a file of which anyone who runs it becomes the owner. -/
def setUserFile : Volume := .furnished [⟨Bytes.ofAscii "p", .file [0x61], some 0o4755⟩]

/-- The mode is not kept as a whole: the set-user bit is gone once the file has been emptied. -/
theorem emptied_file_loses_set_user_bit :
    ∃ s : Session, s.held = [] ∧ s.volume.entry? (s.volume.workingDirectory ++
        [Bytes.ofAscii "p"]) = some (.file 0) ∧
      s.volume.files = [⟨0o4755, [0x61]⟩] ∧
      (s.step (.openNew "a" (Bytes.ofAscii "p"))).1 = .done ∧
      (s.step (.openNew "a" (Bytes.ofAscii "p"))).2.volume.files = [⟨0o755, []⟩] :=
  ⟨{ volume := setUserFile, backing := .defaultDirect, options := {},
     settings := ⟨some (Bytes.ofAscii "scratch"), none, []⟩ },
    rfl, by decide, by decide, by decide, by decide⟩

end Session

end RecordLog
