import RecordLog.Proofs.Writer.Frame

/-!
# What a writer sees of its volume

A writer sees nothing of a volume but the file that it writes to and the conditions. Two volumes
may differ in whatever else they hold: if they agree on these, a call is answered alike on both of
them, leaves the writer in the same state, and they agree on the file afterwards. Together with
`RecordLog.Writer.frame_of_call`, which says what a writer leaves alone, this is all that is needed
to tell apart what writers on different files do.

## Main definitions

* `RecordLog.Volume.AgreeOn`.
* `RecordLog.Stream.Alike` and `RecordLog.Outcome.Alike`.

## Main results

* `RecordLog.Volume.AgreeOn.writeAll` and `RecordLog.Stream.alike_append`.
* `RecordLog.Writer.alike_apply` and `RecordLog.Writer.agreeOn_drop`, on the file of the writer.
* `RecordLog.Writer.alike_apply_of_file` and `RecordLog.Writer.agreeOn_drop_of_file`, on a file that
  the writer may have been taken off.
-/

namespace RecordLog

open Session (Action)

/-! ### Volumes that agree on a file -/

namespace Volume

/-- Two volumes have the same conditions, and the same file at a position, if one is named. -/
structure AgreeOn (o : Option Nat) (v v' : Volume) : Prop where
  conditions_eq : v.conditions = v'.conditions
  file_eq : ∀ id, o = some id → v.files[id]? = v'.files[id]?

variable {o o' : Option Nat} {v v' v₁ v₁' : Volume} {d : Descriptor} {id : Nat}

theorem AgreeOn.refl (o : Option Nat) (v : Volume) : AgreeOn o v v := ⟨rfl, fun _ _ => rfl⟩

/-- Changes to another file do not matter. -/
theorem AgreeOn.of_keepsTo (h : v.AgreeOn o v') (hv : v.KeepsTo o' v₁) (hv' : v'.KeepsTo o' v₁')
    (hne : ∀ id, o = some id → o' ≠ some id) : v₁.AgreeOn o v₁' where
  conditions_eq := by rw [hv.conditions_eq, hv'.conditions_eq, h.conditions_eq]
  file_eq id hid := by
    rw [hv.file_eq id (hne id hid), hv'.file_eq id (hne id hid), h.file_eq id hid]

/-- The same file in place of one that is the same. -/
theorem AgreeOn.setFile (h : v.AgreeOn (some id) v') (f : File) :
    (v.setFile id f).AgreeOn (some id) (v'.setFile id f) where
  conditions_eq := h.conditions_eq
  file_eq := by
    rintro _ ⟨⟩
    rw [Volume.setFile, Volume.setFile, List.getElem?_set_self', List.getElem?_set_self',
      h.file_eq id rfl]

/-- What a write comes to is seen from the file of the descriptor. -/
theorem AgreeOn.write (h : v.AgreeOn d.file? v') {x : Bytes} (hx : x ≠ []) :
    (∃ e, v.write d x = .error e ∧ v'.write d x = .error e) ∨
      ∃ n w w' d', v.write d x = .ok (n, w, d') ∧ v'.write d x = .ok (n, w', d') ∧
        d'.file? = d.file? ∧ w.AgreeOn d.file? w' := by
  obtain ⟨object, writable, offset⟩ := d
  cases writable with
  | false => exact Or.inl ⟨.os Errno.badDescriptor, rfl, rfl⟩
  | true =>
      cases object with
      | directory => exact Or.inl ⟨.os Errno.badDescriptor, rfl, rfl⟩
      | device dev =>
          cases dev with
          | full => exact Or.inl ⟨.os Errno.noSpace, rfl, rfl⟩
          | null => exact Or.inr ⟨_, v, v', _, rfl, rfl, rfl, h⟩
      | file id =>
          have hfile : v.files[id]? = v'.files[id]? := h.file_eq id rfl
          have hconditions := h.conditions_eq
          cases hf : v'.files[id]? with
          | none =>
              rw [hf] at hfile
              exact Or.inl ⟨.os Errno.badDescriptor, by simp [Volume.write, hfile],
                by simp [Volume.write, hf]⟩
          | some f =>
              rw [hf] at hfile
              by_cases hroom : v'.conditions.room offset x.length = 0
              · exact Or.inl ⟨.os Errno.fileTooLarge,
                  by simp [Volume.write, hfile, hx, hconditions, hroom],
                  by simp [Volume.write, hf, hx, hroom]⟩
              · have hwrite {u : Volume} (hu : u.files[id]? = some f)
                    (hc : u.conditions = v'.conditions) :
                    let n := v'.conditions.room offset x.length
                    u.write ⟨.file id, true, offset⟩ x =
                      .ok (n, u.setFile id (f.changed (overwritten f.content offset (x.take n))),
                        ⟨.file id, true, offset + n⟩) := by
                  simp [Volume.write, hu, hx, hc, hroom]
                exact Or.inr ⟨_, _, _, _, hwrite hfile hconditions, hwrite hf rfl, rfl,
                  AgreeOn.setFile h _⟩

/-- **What the writing of bytes comes to is seen from the file of the descriptor.** -/
theorem AgreeOn.writeAll (h : v.AgreeOn d.file? v') (x : Bytes) :
    ∃ answer rest w w' d', v.writeAll d x = ⟨answer, rest, w, d'⟩ ∧
      v'.writeAll d x = ⟨answer, rest, w', d'⟩ ∧ d'.file? = d.file? ∧ w.AgreeOn d.file? w' := by
  refine writeAll_induction (motive := fun v d x r => ∀ v', v.AgreeOn d.file? v' →
    ∃ answer rest w w' d', r = ⟨answer, rest, w, d'⟩ ∧ v'.writeAll d x = ⟨answer, rest, w', d'⟩ ∧
      d'.file? = d.file? ∧ w.AgreeOn d.file? w') ?_ ?_ ?_ v d x v' h
  · intro v d v' h
    exact ⟨_, _, _, _, _, rfl, writeAll_nil v' d, rfl, h⟩
  · intro v d x e hx hwrite v' h
    obtain ⟨e', he, he'⟩ | ⟨n, w, w', d', hw, -⟩ := h.write hx
    · cases hwrite.symm.trans he
      exact ⟨_, _, _, _, _, rfl, writeAll_of_error hx he', rfl, h⟩
    · cases hwrite.symm.trans hw
  · intro v v₁ d d₁ x n hx hwrite ih v' h
    obtain ⟨e, he, -⟩ | ⟨n', w, w', d', hw, hw', hfile, hagree⟩ := h.write hx
    · cases hwrite.symm.trans he
    · cases hwrite.symm.trans hw
      rw [← hfile] at hagree
      obtain ⟨answer, rest, u, u', d₂, hall, hall', hfile₂, hagree₂⟩ := ih w' hagree
      rw [hfile] at hfile₂ hagree₂
      exact ⟨answer, rest, u, u', d₂, hall, (writeAll_of_write hx hw').trans hall', hfile₂, hagree₂⟩

/-- What a sync comes to is seen from the conditions. -/
theorem AgreeOn.sync (h : v.AgreeOn o v') (metadata : Bool) (d : Descriptor) :
    (if metadata then v.syncAll d else v.syncData d) =
      if metadata then v'.syncAll d else v'.syncData d := by
  rw [syncAll, syncAll, syncData, syncData, h.conditions_eq]

end Volume

/-! ### Streams -/

namespace Stream

/-- Two results are the same but for their volumes, and those agree on the file of the stream. -/
def Alike (o : Option Nat) (r r' : Result) : Prop :=
  ∃ answer v v' s, r = (answer, v, s) ∧ r' = (answer, v', s) ∧ s.descriptor.file? = o ∧
    v.AgreeOn o v'

variable {v v' : Volume} {s : Stream}

theorem alike_writeThrough (h : v.AgreeOn s.descriptor.file? v') (data : Bytes) :
    Alike s.descriptor.file? (s.writeThrough v data) (s.writeThrough v' data) := by
  obtain ⟨answer, rest, w, w', d', hwrite, hwrite', hfile, hagree⟩ := h.writeAll data
  exact ⟨answer, w, w', ⟨d', s.pending⟩, by simp [writeThrough, hwrite],
    by simp [writeThrough, hwrite'], hfile, hagree⟩

theorem alike_hold (h : v.AgreeOn s.descriptor.file? v') (data : Bytes) :
    Alike s.descriptor.file? (s.hold v data) (s.hold v' data) :=
  ⟨_, _, _, _, rfl, rfl, rfl, h⟩

theorem alike_spill (h : v.AgreeOn s.descriptor.file? v') :
    Alike s.descriptor.file? (s.spill v) (s.spill v') := by
  obtain ⟨answer, rest, w, w', d', hwrite, hwrite', hfile, hagree⟩ := h.writeAll s.pending
  exact ⟨answer, w, w', ⟨d', rest⟩, by simp [spill, hwrite], by simp [spill, hwrite'], hfile,
    hagree⟩

theorem alike_place (h : v.AgreeOn s.descriptor.file? v') (capacity : Nat) (data : Bytes) :
    Alike s.descriptor.file?
      (if capacity ≤ data.length then s.writeThrough v data else s.hold v data)
      (if capacity ≤ data.length then s.writeThrough v' data else s.hold v' data) := by
  split_ifs
  · exact alike_writeThrough h data
  · exact alike_hold h data

/-- **What an append comes to is seen from the file of the stream.** -/
theorem alike_append (h : v.AgreeOn s.descriptor.file? v') (capacity : Nat) (data : Bytes) :
    Alike s.descriptor.file? (s.append capacity v data) (s.append capacity v' data) := by
  unfold append
  by_cases hroom : data.length < capacity - s.pending.length
  · rw [if_pos hroom, if_pos hroom]
    exact alike_hold h data
  rw [if_neg hroom, if_neg hroom]
  by_cases hover : capacity - s.pending.length < data.length
  · rw [if_pos hover, if_pos hover]
    obtain ⟨answer, w, w', s', hspill, hspill', hfile, hagree⟩ := alike_spill h
    rw [hspill, hspill']
    cases answer with
    | error e => exact ⟨_, _, _, _, rfl, rfl, hfile, hagree⟩
    | ok =>
        rw [← hfile] at hagree ⊢
        exact alike_place hagree capacity data
  · rw [if_neg hover, if_neg hover]
    exact alike_place h capacity data

theorem agreeOn_release (h : v.AgreeOn s.descriptor.file? v') :
    (s.release v).AgreeOn s.descriptor.file? (s.release v') := by
  obtain ⟨answer, w, w', s', hspill, hspill', -, hagree⟩ := alike_spill h
  rwa [release, release, hspill, hspill']

end Stream

/-! ### Writers -/

/-- Two outcomes are the same but for their volumes, and those agree on a file. -/
def Outcome.Alike {W : Type} (o : Option Nat) (a b : Outcome W) : Prop :=
  ∃ r v v' w, a = ⟨r, v, w⟩ ∧ b = ⟨r, v', w⟩ ∧ v.AgreeOn o v'

theorem Outcome.Alike.map {W W' : Type} {o : Option Nat} {a b : Outcome W} (h : a.Alike o b)
    (f : W → W') : (a.map f).Alike o (b.map f) := by
  obtain ⟨r, v, v', w, rfl, rfl, hagree⟩ := h
  exact ⟨r, v, v', f w, rfl, rfl, hagree⟩

variable {v v' : Volume}

namespace DirectWriter

theorem alike_append {w : DirectWriter} (h : v.AgreeOn (w.descriptor.bind Descriptor.file?) v')
    (data : Bytes) :
    (w.append v data).Alike (w.descriptor.bind Descriptor.file?) (w.append v' data) := by
  obtain ⟨p, descriptor, m⟩ := w
  unfold append
  split_ifs
  · exact ⟨_, _, _, _, rfl, rfl, h⟩
  cases descriptor with
  | none => exact ⟨_, _, _, _, rfl, rfl, h⟩
  | some d =>
      obtain ⟨answer, rest, w, w', d', hwrite, hwrite', -, hagree⟩ := Volume.AgreeOn.writeAll h data
      exact ⟨answer.mapError (.refused p), w, w', ⟨p, some d', m⟩, by simp [hwrite],
        by simp [hwrite'], hagree⟩

theorem alike_sync {o : Option Nat} (h : v.AgreeOn o v') (w : DirectWriter) :
    (w.sync v).Alike o (w.sync v') := by
  obtain ⟨p, descriptor, m⟩ := w
  cases descriptor with
  | none => exact ⟨_, _, _, _, rfl, rfl, h⟩
  | some d => exact ⟨_, _, _, _, by simp only [sync, h.sync m d], rfl, h⟩

end DirectWriter

namespace BufferedWriter

variable {p : Bytes} {capacity : Nat} {s : Stream} {m : Bool}

theorem alike_ofStream {o : Option Nat} (w : BufferedWriter) {r r' : Stream.Result}
    (h : Stream.Alike o r r') : (w.ofStream r).Alike o (w.ofStream r') := by
  obtain ⟨answer, v, v', s, rfl, rfl, -, hagree⟩ := h
  exact ⟨_, _, _, _, rfl, rfl, hagree⟩

theorem alike_append (h : v.AgreeOn s.descriptor.file? v') (data : Bytes) :
    (append v ⟨p, capacity, some s, m⟩ data).Alike s.descriptor.file?
      (append v' ⟨p, capacity, some s, m⟩ data) := by
  unfold append
  split_ifs
  · exact ⟨_, _, _, _, rfl, rfl, h⟩
  · exact alike_ofStream _ (Stream.alike_append h capacity data)

theorem alike_flush (p : Bytes) (capacity : Nat) (m : Bool) (h : v.AgreeOn s.descriptor.file? v') :
    (flush v ⟨p, capacity, some s, m⟩).Alike s.descriptor.file?
      (flush v' ⟨p, capacity, some s, m⟩) :=
  alike_ofStream _ (Stream.alike_spill h)

theorem alike_sync (h : v.AgreeOn s.descriptor.file? v') :
    (sync v ⟨p, capacity, some s, m⟩).Alike s.descriptor.file?
      (sync v' ⟨p, capacity, some s, m⟩) := by
  obtain ⟨r, v₁, v₁', w, hflush, hflush', hagree⟩ := alike_flush p capacity m h
  unfold sync
  rw [hflush, hflush']
  cases r with
  | error e => exact ⟨_, _, _, _, rfl, rfl, hagree⟩
  | ok =>
      obtain ⟨p, capacity, stream, m⟩ := w
      cases stream with
      | none => exact ⟨_, _, _, _, rfl, rfl, hagree⟩
      | some s => exact ⟨_, _, _, _, by simp only [hagree.sync m s.descriptor], rfl, hagree⟩

theorem alike_close (h : v.AgreeOn s.descriptor.file? v') :
    (close v ⟨p, capacity, some s, m⟩).Alike s.descriptor.file?
      (close v' ⟨p, capacity, some s, m⟩) := by
  obtain ⟨answer, v₁, v₁', s₁, hspill, hspill', hfile, hagree⟩ := Stream.alike_spill h
  simp only [close, hspill, hspill']
  cases answer with
  | error e =>
      rw [← hfile] at hagree ⊢
      exact ⟨_, _, _, _, rfl, rfl, Stream.agreeOn_release hagree⟩
  | ok => exact ⟨_, _, _, _, rfl, rfl, hagree⟩

theorem agreeOn_drop (p : Bytes) (capacity : Nat) (m : Bool) (h : v.AgreeOn s.descriptor.file? v') :
    (drop v ⟨p, capacity, some s, m⟩).AgreeOn s.descriptor.file?
      (drop v' ⟨p, capacity, some s, m⟩) := by
  obtain ⟨answer, v₁, v₁', s₁, hspill, hspill', hfile, hagree⟩ := Stream.alike_spill h
  simp only [drop, hspill, hspill']
  rw [← hfile] at hagree ⊢
  exact Stream.agreeOn_release hagree

end BufferedWriter

namespace Writer

/-- **What a call comes to is seen from the file of the writer.** -/
theorem alike_apply {w : Writer} (h : v.AgreeOn w.file? v') (a : Action) :
    (a.apply v w).Alike w.file? (a.apply v' w) := by
  match w with
  | .direct w =>
      cases a with
      | append data => exact (DirectWriter.alike_append h data).map _
      | flush =>
          obtain ⟨p, descriptor, m⟩ := w
          cases descriptor <;> exact ⟨_, _, _, _, rfl, rfl, h⟩
      | sync => exact (DirectWriter.alike_sync h w).map _
      | close => exact ⟨_, _, _, _, rfl, rfl, h⟩
  | .buffered ⟨p, capacity, none, m⟩ =>
      have hout (v : Volume) : a.apply v (.buffered ⟨p, capacity, none, m⟩) =
          ⟨answerOfClosed p a, v, .buffered ⟨p, capacity, none, m⟩⟩ := outcome_of_closed rfl ⟨v, a⟩
      exact ⟨_, _, _, _, hout v, hout v', h⟩
  | .buffered ⟨p, capacity, some s, m⟩ =>
      cases a with
      | append data => exact (BufferedWriter.alike_append h data).map _
      | flush => exact (BufferedWriter.alike_flush p capacity m h).map _
      | sync => exact (BufferedWriter.alike_sync h).map _
      | close => exact (BufferedWriter.alike_close h).map _

/-- So is what giving a writer up comes to. -/
theorem agreeOn_drop {w : Writer} (h : v.AgreeOn w.file? v') :
    (w.drop v).AgreeOn w.file? (w.drop v') := by
  match w with
  | .direct w => exact h
  | .buffered ⟨p, capacity, none, m⟩ => exact h
  | .buffered ⟨p, capacity, some s, m⟩ => exact BufferedWriter.agreeOn_drop p capacity m h

variable {o : Option Nat} {w : Writer}

/-- A writer that has been taken off a file leaves it alone on both volumes. -/
theorem alike_apply_of_file (h : v.AgreeOn o v') (hw : w.file? = none ∨ w.file? = o) (a : Action) :
    (a.apply v w).Alike o (a.apply v' w) := by
  rcases hw with hnone | rfl
  · have hagree : v.AgreeOn w.file? v' :=
      ⟨h.conditions_eq, fun id hid => by rw [hnone] at hid; cases hid⟩
    obtain ⟨r, v₁, v₁', w', hout, hout', -⟩ := alike_apply hagree a
    have hkeeps := (frame_of_call ⟨v, a⟩ w).2
    have hkeeps' := (frame_of_call ⟨v', a⟩ w).2
    rw [Call.outcome, hout, hnone] at hkeeps
    rw [Call.outcome, hout', hnone] at hkeeps'
    exact ⟨r, v₁, v₁', w', hout, hout',
      h.of_keepsTo hkeeps hkeeps' fun id _ => (Option.some_ne_none id).symm⟩
  · exact alike_apply h a

theorem agreeOn_drop_of_file (h : v.AgreeOn o v') (hw : w.file? = none ∨ w.file? = o) :
    (w.drop v).AgreeOn o (w.drop v') := by
  rcases hw with hnone | rfl
  · have hkeeps := keepsTo_drop v w
    have hkeeps' := keepsTo_drop v' w
    rw [hnone] at hkeeps hkeeps'
    exact h.of_keepsTo hkeeps hkeeps' fun id _ => (Option.some_ne_none id).symm
  · exact agreeOn_drop h

end Writer

end RecordLog
