import RecordLog.Proofs.Session.Using

/-!
# Writers apart

Writers of a session are apart if no two of them write to the same file and each one has its
descriptor behind all that its file holds. What a writer does keeps to its own file, so that writers
stay apart as long as no path is opened whose file a writer of the session writes to. Handles do not
matter for this: the writer that was under a handle before is given up only after the file has been
opened, and may then still write to it.

## Main definitions

* `RecordLog.Writer.IsAtEnd`.
* `RecordLog.Session.OpensApart` and `RecordLog.Session.RunsApart`.
* `RecordLog.Session.IsApart`.

## Main results

* `RecordLog.Writer.IsAtEnd.outcome`: a writer stays where its file ends.
* `RecordLog.Session.IsApart.of_uses`, for steps that use a writer which is there.
* `RecordLog.Session.IsApart.step` and `RecordLog.Session.IsApart.after`.
-/

namespace RecordLog

open Session (Action)

/-! ### Writers at the ends of their files -/

namespace Writer

/-- A writer is open on a file, and behind all that the file holds. -/
def IsAtEnd (v : Volume) (w : Writer) (id : Nat) : Prop :=
  ∃ d c, w.descriptor? = some d ∧ d.object = .file id ∧ v.content? id = some c ∧
    d.offset = c.length

variable {v v' : Volume} {w : Writer} {id : Nat}

/-- Where a writer is does not depend on other files. -/
theorem IsAtEnd.of_content?_eq (h : w.IsAtEnd v id) (hv : v'.content? id = v.content? id) :
    w.IsAtEnd v' id := by
  obtain ⟨d, c, hd, hobject, hc, hoffset⟩ := h
  exact ⟨d, c, hd, hobject, hv.trans hc, hoffset⟩

/-- **A writer stays behind all that its file holds**, however much of what it hands over is
written, until it is closed. -/
theorem IsAtEnd.outcome (call : Call) (h : w.IsAtEnd call.volume id)
    (hopen : (call.outcome w).writer.file? = some id) :
    (call.outcome w).writer.IsAtEnd (call.outcome w).volume id := by
  obtain ⟨d, c, hd, hobject, hc, hoffset⟩ := h
  obtain ⟨handed, hhands⟩ := call.exists_handsOver_outcome w
  cases hhands with
  | closed hnone =>
      rw [hd] at hnone
      cases hnone
  | writes d₁ d' hsome hwrites hwriter =>
      rw [hd] at hsome
      cases hsome
      have hclose : call.action ≠ .close := by
        intro hclose
        rw [file?, hwriter, if_pos hclose] at hopen
        cases hopen
      rw [if_neg hclose] at hwriter
      by_cases hnone : handed = []
      · subst hnone
        obtain ⟨hvolume, rfl⟩ := hwrites.eq_of_nil
        exact ⟨d', c, hwriter, hobject, by rwa [hvolume], hoffset⟩
      · obtain ⟨hcontent, rfl⟩ := hwrites.content?_eq hobject hc hnone
        rw [hoffset, Volume.overwritten_length] at hcontent
        exact ⟨_, _, hwriter, hobject, hcontent, by simp [hoffset]⟩

end Writer

/-! ### Directories -/

namespace Backing

theorem files_createDirectory {v v' : Volume} {p : Bytes} (b : Backing)
    (h : b.createDirectory v p = .ok v') : v'.files = v.files :=
  Volume.files_makeDirectory (makeDirectory_of_createDirectory b h)

theorem files_scratchDirectory (v : Volume) (p : Bytes) :
    (b : Backing) → (b.scratchDirectory v p).2.files = v.files
  | .direct _ => Volume.files_makeDirectories v p
  | .buffered _ _ => Volume.files_makeDirectories v p
  | .forwarding inner => files_scratchDirectory v p inner
  | .fixedLayout inner => files_scratchDirectory v p inner

end Backing

/-! ### Opening apart -/

namespace Session

/-- The regular file that a step opens for writing. -/
def openedFile? (s : Session) : Step → Option Nat
  | .openNew _ p => fileOf (s.backing.newWriter s.volume p)
  | .openChosen _ p c readOnly => fileOf (s.openAs p readOnly c)
  | _ => none
where
  /-- The file of a writer that has been made. -/
  fileOf : Except FileError (Volume × Writer) → Option Nat
    | .ok (_, w) => w.file?
    | .error _ => none

/-- A step does not open a file that a writer of the session writes to. -/
def OpensApart (s : Session) (a : Step) : Prop :=
  ∀ x ∈ s.held, x.2.writer.file? ≠ none → s.openedFile? a ≠ x.2.writer.file?

instance (s : Session) (a : Step) : Decidable (s.OpensApart a) :=
  inferInstanceAs (Decidable (∀ _ ∈ _, _))

/-- None of the steps of a session opens a file that a writer writes to at the time. -/
def RunsApart (s : Session) : List Step → Prop
  | [] => True
  | a :: rest => s.OpensApart a ∧ (s.step a).2.RunsApart rest

/-- Each writer is behind all that its file holds, and no other one writes to that file. -/
structure IsApart (s : Session) : Prop where
  isAtEnd : ∀ {k x id}, s.held.lookup k = some x → x.writer.file? = some id →
    x.writer.IsAtEnd s.volume id
  eq_of_file : ∀ {k k' x x' id}, s.held.lookup k = some x → s.held.lookup k' = some x' →
    x.writer.file? = some id → x'.writer.file? = some id → k = k'

variable {s : Session} {h : String} {v : Volume} {held : List (String × Held)}

theorem isApart_of_held_eq_nil (h : s.held = []) : s.IsApart where
  isAtEnd hk := by
    rw [h] at hk
    cases hk
  eq_of_file hk := by
    rw [h] at hk
    cases hk

/-- Writers stay apart if those under all handles but one are left alone, and the one there is apart
from them. -/
theorem IsApart.replace (hs : s.IsApart)
    (hothers : ∀ k, k ≠ h → held.lookup k = s.held.lookup k)
    (hvolume : ∀ {k x id}, k ≠ h → s.held.lookup k = some x → x.writer.file? = some id →
      v.content? id = s.volume.content? id)
    (hself : ∀ {y id}, held.lookup h = some y → y.writer.file? = some id →
      y.writer.IsAtEnd v id ∧
        ∀ {k x}, k ≠ h → s.held.lookup k = some x → x.writer.file? ≠ some id) :
    IsApart { s with volume := v, held := held } where
  isAtEnd {k x id} hk hfile := by
    by_cases hkh : k = h
    · subst hkh
      exact (hself hk hfile).1
    · rw [hothers k hkh] at hk
      exact (hs.isAtEnd hk hfile).of_content?_eq (hvolume hkh hk hfile)
  eq_of_file {k k' x x' id} hk hk' hfile hfile' := by
    by_cases hkh : k = h <;> by_cases hkh' : k' = h
    · rw [hkh, hkh']
    · rw [hkh] at hk
      rw [hothers k' hkh'] at hk'
      exact absurd hfile' ((hself hk hfile).2 hkh' hk')
    · rw [hkh'] at hk'
      rw [hothers k hkh] at hk
      exact absurd hfile ((hself hk' hfile').2 hkh hk)
    · rw [hothers k hkh] at hk
      rw [hothers k' hkh'] at hk'
      exact hs.eq_of_file hk hk' hfile hfile'

/-- Nothing but the writers and the files matters. -/
theorem IsApart.of_files_eq (hs : s.IsApart) {s' : Session} (hheld : s'.held = s.held)
    (hfiles : s'.volume.files = s.volume.files) : s'.IsApart where
  isAtEnd hk hfile := by
    rw [hheld] at hk
    exact (hs.isAtEnd hk hfile).of_content?_eq (by rw [Volume.content?, hfiles, Volume.content?])
  eq_of_file := by
    rw [hheld]
    exact hs.eq_of_file

theorem IsApart.haveOwnFiles (hs : s.IsApart) : s.HaveOwnFiles := by
  intro h k id hh hk
  obtain ⟨x, hx, hxfile⟩ := Option.bind_eq_some_iff.1 hh
  obtain ⟨y, hy, hyfile⟩ := Option.bind_eq_some_iff.1 hk
  exact hs.eq_of_file hx hy hxfile hyfile

/-! ### Steps -/

/-- Writers stay apart if one of them is used and is at the end of its file afterwards. -/
theorem IsApart.of_uses (hs : s.IsApart) {s' : Session} (huses : s.Uses h s')
    (hself : ∀ {x id}, s'.held.lookup h = some x → x.writer.file? = some id →
      x.writer.IsAtEnd s'.volume id) : s'.IsApart where
  isAtEnd {k x id} hk hfile := by
    by_cases hkh : k = h
    · subst hkh
      exact hself hk hfile
    · rw [huses.lookup_eq k hkh] at hk
      have hkfile : s.fileOf k = some id := (fileOf_of_lookup hk).trans hfile
      exact (hs.isAtEnd hk hfile).of_content?_eq
        (huses.keepsTo.content?_eq fun hhfile => hkh (hs.haveOwnFiles hkfile hhfile))
  eq_of_file hk hk' hfile hfile' :=
    hs.haveOwnFiles.of_uses huses ((fileOf_of_lookup hk).trans hfile)
      ((fileOf_of_lookup hk').trans hfile')

/-- A step that uses a writer keeps writers apart. -/
theorem IsApart.use (hs : s.IsApart) {a : Step} (ha : a.handle? = some h) :
    (s.step a).2.IsApart := by
  refine hs.of_uses (s.uses_step ha) fun {y id} hy hyfile => ?_
  cases a with
  | act k a =>
      obtain rfl : k = h := Option.some.inj ha
      cases hx : s.held.lookup k with
      | none =>
          simp only [Session.step, hx] at hy
          cases hy
      | some x =>
          rw [step_act hx, lookup_insert_self] at hy
          cases hy
          have hxfile : x.writer.file? = some id := by
            rcases (Writer.frame_of_call ⟨s.volume, a⟩ x.writer).1 with hnone | hsame
            · cases hyfile.symm.trans hnone
            · exact hsame.symm.trans hyfile
          rw [step_act hx]
          exact Writer.IsAtEnd.outcome ⟨s.volume, a⟩ (hs.isAtEnd hx hxfile) hyfile
  | drop k =>
      obtain rfl : k = h := Option.some.inj ha
      cases hx : s.held.lookup k with
      | none =>
          simp only [Session.step, hx] at hy
          cases hy
      | some x =>
          simp only [Session.step, hx, lookup_erase_self] at hy
          cases hy
  | inspect k =>
      rw [snd_step_inspect] at hy ⊢
      exact hs.isAtEnd hy hyfile
  | openNew | openChosen | createDirectory | remove | changeSettings | scratchDirectory
  | requireScratch => cases ha

/-- What a step makes that opens a path: a writer that is behind its empty file, and a volume in
which other files are as before. -/
structure Opened (s : Session) (v : Volume) (w : Writer) : Prop where
  isAtEnd : ∀ {id}, w.file? = some id → w.IsAtEnd v id
  content?_eq : ∀ {id}, w.file? ≠ some id → v.content? id = s.volume.content? id

theorem opened_of_newWriter {b : Backing} {p : Bytes} {w : Writer}
    (hw : b.newWriter s.volume p = .ok (v, w)) : s.Opened v w := by
  obtain ⟨d, hopen, m, hw⟩ := Backing.newWriter_cases b hw
  have hd : w.descriptor? = some d := by
    obtain rfl | ⟨capacity, rfl⟩ := hw <;> rfl
  have hfile : w.file? = d.file? := by rw [Writer.file?, hd, Option.bind_some]
  refine ⟨fun {id} hid => ?_, fun {id} hid => ?_⟩
  · rw [hfile] at hid
    have hobject := (Descriptor.file?_eq_some_iff.1 hid).1
    obtain ⟨rfl, hcontent⟩ := Volume.isTruncated_of_openToWrite hopen hobject
    exact ⟨_, [], hd, hobject, hcontent, rfl⟩
  · exact Volume.content?_openToWrite hopen (by rwa [← hfile])

/-- A writer on a path that was opened to read from it writes to no file. -/
theorem opened_of_reader {p : Bytes} {f : Descriptor → Writer} {w : Writer}
    (hf : ∀ d, (f d).file? = d.file?)
    (hw : (openAs.reader s p).map (fun d => (s.volume, f d)) = .ok (v, w)) : s.Opened v w := by
  unfold openAs.reader at hw
  cases hopen : s.volume.openToRead p with
  | error e =>
      rw [hopen] at hw
      cases hw
  | ok d =>
      rw [hopen] at hw
      cases hw
      refine ⟨fun hid => ?_, fun _ => rfl⟩
      rw [hf, Volume.file?_openToRead hopen] at hid
      cases hid

theorem opened_of_openAs {p : Bytes} {readOnly : Bool} {c : Choice} {w : Writer}
    (hw : s.openAs p readOnly c = .ok (v, w)) : s.Opened v w := by
  cases c with
  | direct =>
      cases readOnly with
      | false => exact opened_of_newWriter (b := .direct s.options) hw
      | true =>
          exact opened_of_reader (f := fun d => .direct ⟨p, some d, s.options.syncMetadata⟩)
            (fun _ => rfl) hw
  | buffered =>
      cases readOnly with
      | false => exact opened_of_newWriter (b := .buffered s.options s.options) hw
      | true => exact opened_of_reader (f := Backing.bufferedWriter s.options p) (fun _ => rfl) hw

/-- The writer that was under a handle keeps to its file when it is given up. -/
theorem content?_giveUp {id : Nat} (v : Volume)
    (h' : ∀ x, held.lookup h = some x → x.writer.file? ≠ some id) :
    (giveUp v h held).content? id = v.content? id := by
  unfold giveUp
  split
  · rfl
  · rename_i x hx
    exact (Writer.keepsTo_drop v x.writer).content?_eq (h' x hx)

/-- A new writer on a file that no other one writes to keeps writers apart. -/
theorem IsApart.hold (hs : s.IsApart) {inspected : Bool} {w : Writer} (hw : s.Opened v w)
    (hapart : ∀ x ∈ s.held, x.2.writer.file? ≠ none → w.file? ≠ x.2.writer.file?) :
    IsApart { s with volume := giveUp v h s.held, held := insert h ⟨w, inspected⟩ s.held } := by
  have hother {k : String} {x : Held} {id : Nat} (hx : s.held.lookup k = some x)
      (hxfile : x.writer.file? = some id) : w.file? ≠ some id := by
    obtain ⟨before, after, hheld, -⟩ := List.lookup_eq_some_iff.1 hx
    have hmem : (k, x) ∈ s.held := by simp [hheld]
    intro hwfile
    exact hapart _ hmem (by simp [hxfile]) (hwfile.trans hxfile.symm)
  refine hs.replace (fun k hk => lookup_insert_of_ne _ _ hk) ?_ ?_
  · intro k y id hk hy hyfile
    rw [content?_giveUp v fun x hx hxfile => hk (hs.eq_of_file hy hx hyfile hxfile)]
    exact hw.content?_eq (hother hy hyfile)
  · intro y id hy hyfile
    rw [lookup_insert_self] at hy
    cases hy
    refine ⟨(hw.isAtEnd hyfile).of_content?_eq ?_, fun _ hx hxfile => hother hx hxfile hyfile⟩
    exact content?_giveUp v fun x hx hxfile => hother hx hxfile hyfile

/-- **A step that opens apart keeps writers apart.** -/
theorem IsApart.step (hs : s.IsApart) {a : Step} (ha : s.OpensApart a) :
    (s.step a).2.IsApart := by
  cases a with
  | openNew h p =>
      rw [Session.step]
      cases hw : s.backing.newWriter s.volume p with
      | error e => exact hs
      | ok r =>
          refine hs.hold (opened_of_newWriter hw) fun x hx hfile => ?_
          have hne := ha x hx hfile
          rwa [openedFile?, hw] at hne
  | openChosen h p c readOnly =>
      rw [Session.step]
      cases hw : s.openAs p readOnly c with
      | error e => exact hs
      | ok r =>
          refine hs.hold (opened_of_openAs hw) fun x hx hfile => ?_
          have hne := ha x hx hfile
          rwa [openedFile?, hw] at hne
  | act h | drop h | inspect h => exact hs.use (h := h) rfl
  | createDirectory p =>
      rw [Session.step]
      cases hv : s.backing.createDirectory s.volume p with
      | error e => exact hs
      | ok v => exact hs.of_files_eq rfl (s.backing.files_createDirectory hv)
  | remove p =>
      rw [Session.step]
      cases hv : s.volume.remove p with
      | error e => exact hs
      | ok v => exact hs.of_files_eq rfl (Volume.files_remove hv)
  | changeSettings x => exact hs.of_files_eq rfl rfl
  | scratchDirectory =>
      have hfiles := Backing.files_scratchDirectory s.volume s.scratch s.backing
      rw [Session.step]
      split <;> rename_i hr <;> rw [hr] at hfiles <;> exact hs.of_files_eq rfl hfiles
  | requireScratch =>
      have hfiles := Backing.files_scratchDirectory s.volume s.scratch Backing.defaultBuffered
      rw [Session.step]
      split <;> rename_i hr <;> rw [hr] at hfiles <;> exact hs.of_files_eq rfl hfiles

/-- **So do steps in a row.** -/
theorem IsApart.after (hs : s.IsApart) {steps : List Step} (h : s.RunsApart steps) :
    (s.after steps).IsApart := by
  induction steps generalizing s with
  | nil => exact hs
  | cons a steps ih => exact ih (hs.step h.1) h.2

end Session

end RecordLog
