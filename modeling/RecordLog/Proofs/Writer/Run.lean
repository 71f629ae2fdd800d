import RecordLog.Proofs.Writer.Intake

/-!
# Calls in a row

A writer is opened on a regular file that it has for itself, and calls are made one after the
other. What holds for one call by `RecordLog.Writer.Realizes.apply` holds for all of them: the last
one is answered as the intake answers it, and the file and what is held back are together what has
been taken in. After a flush, a sync or a close nothing is held back.

## Main definitions

* `RecordLog.Writer.after`, what the last of a row of calls comes to.
* `RecordLog.Session.Action.Settles`.
* `RecordLog.Writer.descriptor?`, `RecordLog.Writer.IsOnFile` and
  `RecordLog.Writer.syncsMetadata`.
* `RecordLog.Backing.making`, the options that say how a backing makes files and directories.

## Main results

* `RecordLog.Writer.Realizes.after` and `RecordLog.Writer.Realizes.pending_after`.
* `RecordLog.Backing.newWriter_cases` and `RecordLog.Backing.makeDirectory_of_createDirectory`, what
  a backing does to make a writer or a directory.
* `RecordLog.Backing.realizes_of_newWriter`: a new writer has taken nothing in yet.
-/

namespace RecordLog

open Session (Action)

/-- A call after which a writer holds nothing back. -/
def Session.Action.Settles : Action → Prop
  | .append _ => False
  | .flush | .sync | .close => True

namespace Writer

/-- What the last of a row of calls comes to. Before the first one nothing has happened. -/
def after (v : Volume) (w : Writer) (calls : List Action) : Outcome Writer :=
  calls.foldl (fun o a => a.apply o.volume o.writer) ⟨.ok (), v, w⟩

@[simp] theorem after_nil (v : Volume) (w : Writer) : w.after v [] = ⟨.ok (), v, w⟩ := rfl

@[simp] theorem after_concat (v : Volume) (w : Writer) (calls : List Action) (a : Action) :
    w.after v (calls ++ [a]) = a.apply (w.after v calls).volume (w.after v calls).writer := by
  simp [after]

variable {v : Volume} {id : Nat} {c : Bytes} {w : Writer} {s : Intake}

/-- **Calls in a row keep a writer doing what its intake says**, if its file has room for all that
has been taken in after them. -/
theorem Realizes.after (h : Realizes v id c w s) {calls : List Action}
    (hroom : v.CanHold (s.after calls).2.taken.length) :
    ∃ c', Follows v (w.after v calls) id c c' (s.after calls) := by
  induction calls using List.reverseRecOn with
  | nil => exact ⟨c, Follows.refl h _⟩
  | append_singleton calls a ih =>
      rw [Intake.after_concat] at hroom
      have hbefore := hroom.mono ((s.after calls).2.taken_prefix_call a).length_le
      obtain ⟨c₁, -, hgrows₁, hconditions₁, hrealizes₁⟩ := ih hbefore
      obtain ⟨c₂, hresult, hgrows₂, hconditions₂, hrealizes₂⟩ :=
        hrealizes₁.apply a (hroom.congr hconditions₁)
      rw [after_concat, Intake.after_concat]
      exact ⟨c₂, hresult, hgrows₁.trans hgrows₂, hconditions₂.trans hconditions₁, hrealizes₂⟩

theorem Realizes.pending_apply (h : Realizes v id c w s) {a : Action} (ha : a.Settles)
    (hroom : v.CanHold s.taken.length) : (a.apply v w).writer.pending = [] := by
  cases a with
  | append data => exact ha.elim
  | flush =>
      cases h with
      | buffered p capacity m b h =>
          obtain ⟨v', hflush, -⟩ := flush_atEnd p capacity m h hroom
          simp [Action.apply, Writer.flush, hflush, Outcome.map, pending, BufferedWriter.pending]
      | direct | directClosed | bufferedClosed => rfl
  | sync =>
      cases h with
      | buffered p capacity m b h =>
          obtain ⟨v', hsync, -⟩ := sync_atEnd p capacity m h hroom
          simp [Action.apply, Writer.sync, hsync, Outcome.map, pending, BufferedWriter.pending]
      | direct | directClosed | bufferedClosed => rfl
  | close =>
      cases h with
      | buffered p capacity m b h =>
          obtain ⟨v', hspill, -⟩ := Stream.spill_atEnd h hroom
          simp [Action.apply, Writer.close, BufferedWriter.close, hspill, Outcome.map, pending,
            BufferedWriter.pending]
      | direct | directClosed | bufferedClosed => rfl

/-- A call that settles leaves nothing to be written. -/
theorem Realizes.pending_after (h : Realizes v id c w s) {calls : List Action}
    (hroom : v.CanHold (s.after calls).2.taken.length) {a : Action} (ha : a ∈ calls.getLast?)
    (hsettles : a.Settles) : (w.after v calls).writer.pending = [] := by
  obtain ⟨before, rfl⟩ := List.getLast?_eq_some_iff.1 ha
  rw [Intake.after_concat] at hroom
  have hbefore := hroom.mono ((s.after before).2.taken_prefix_call a).length_le
  obtain ⟨c', -, -, hconditions, hrealizes⟩ := h.after hbefore
  rw [after_concat]
  exact hrealizes.pending_apply hsettles (hbefore.congr hconditions)

/-! ### New writers -/

theorem realizes_direct {d : Descriptor} (h : v.IsTruncated d id) (p : Bytes) (m : Bool) :
    Realizes v id [] (.direct ⟨p, some d, m⟩) { path := p, synced := v.conditions.synced m } := by
  obtain ⟨rfl, hcontent⟩ := h
  exact .direct p m hcontent rfl

theorem realizes_buffered {d : Descriptor} (h : v.IsTruncated d id) (p : Bytes) (capacity : Nat)
    (m : Bool) :
    Realizes v id [] (.buffered ⟨p, capacity, some ⟨d, []⟩, m⟩)
      { path := p, synced := v.conditions.synced m } := by
  obtain ⟨rfl, hcontent⟩ := h
  exact .buffered_nil p capacity m hcontent rfl

/-- The descriptor through which a writer writes, unless it is closed. -/
def descriptor? : Writer → Option Descriptor
  | .direct w => w.descriptor
  | .buffered w => w.stream.map Stream.descriptor

/-- Whether a writer asks that the properties of its file be durable, too, when it is synced. -/
def syncsMetadata : Writer → Bool
  | .direct w => w.syncMetadata
  | .buffered w => w.syncMetadata

/-- A writer writes to a regular file. -/
def IsOnFile (w : Writer) (id : Nat) : Prop := ∃ d, w.descriptor? = some d ∧ d.object = .file id

end Writer

namespace Backing

variable {v v' : Volume} {p : Bytes} {o : Options} {d : Descriptor} {w : Writer} {id : Nat}

theorem eq_ok_of_mapError {α : Type} {r : Except SystemError α} {f : SystemError → FileError}
    {x : α} (h : r.mapError f = .ok x) : r = .ok x := by
  cases r <;> cases h
  rfl

theorem openToWrite_of_openFile (h : openFile v o p = .ok (v', d)) :
    v.openToWrite p o.fileMode.toNat = .ok (v', d) :=
  eq_ok_of_mapError h

/-- The options that say how a backing makes files and directories. -/
def making : Backing → Options
  | .direct o => o
  | .buffered base _ => base
  | .forwarding inner => inner.making
  | .fixedLayout inner => inner.making

/-- What a backing hands out is a direct writer, or a buffered one with an empty buffer, on a
descriptor that has just been opened for writing. -/
theorem newWriter_cases : (b : Backing) → b.newWriter v p = .ok (v', w) →
    ∃ d, v.openToWrite p b.making.fileMode.toNat = .ok (v', d) ∧
      ∃ m, w = .direct ⟨p, some d, m⟩ ∨ ∃ capacity, w = .buffered ⟨p, capacity, some ⟨d, []⟩, m⟩
  | .direct o, h => by
      rw [newWriter, openDirect] at h
      cases hopen : openFile v o p with
      | error e =>
          rw [hopen] at h
          cases h
      | ok r =>
          rw [hopen] at h
          cases h
          exact ⟨_, openToWrite_of_openFile hopen, _, Or.inl rfl⟩
  | .buffered base o, h => by
      rw [newWriter, openBuffered] at h
      cases hopen : openFile v base p with
      | error e =>
          rw [hopen] at h
          cases h
      | ok r =>
          rw [hopen] at h
          cases h
          exact ⟨_, openToWrite_of_openFile hopen, _, Or.inr ⟨_, rfl⟩⟩
  | .forwarding inner, h => newWriter_cases inner h
  | .fixedLayout inner, h => newWriter_cases inner h

/-- A directory that a backing makes has the mode that the options for making tell. -/
theorem makeDirectory_of_createDirectory : (b : Backing) → b.createDirectory v p = .ok v' →
    v.makeDirectory p b.making.dirMode.toNat = .ok v'
  | .direct _, h => eq_ok_of_mapError h
  | .buffered _ _, h => eq_ok_of_mapError h
  | .forwarding inner, h => makeDirectory_of_createDirectory inner h
  | .fixedLayout _, h => nomatch h

/-- **A new writer on a regular file has taken nothing in yet**, whatever backing made it. -/
theorem realizes_of_newWriter {b : Backing} (h : b.newWriter v p = .ok (v', w))
    (hfile : w.IsOnFile id) :
    w.Realizes v' id [] { path := p, synced := v'.conditions.synced w.syncsMetadata } := by
  obtain ⟨d, hopen, m, hw⟩ := newWriter_cases b h
  obtain ⟨d', hd', hobject⟩ := hfile
  obtain rfl | ⟨capacity, rfl⟩ := hw
  · cases hd'
    exact Writer.realizes_direct (Volume.isTruncated_of_openToWrite hopen hobject) p m
  · cases hd'
    exact Writer.realizes_buffered (Volume.isTruncated_of_openToWrite hopen hobject) p capacity m

end Backing

end RecordLog
