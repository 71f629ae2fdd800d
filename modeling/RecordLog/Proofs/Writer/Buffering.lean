import RecordLog.Proofs.Writer.Run

/-!
# Buffering cannot be seen

A buffered and a direct writer, each with a regular file for itself, get the same calls. Both
realize the same intake, so that they answer alike; and what the one still holds back is just what
its file is short of the other's.

## Main results

* `RecordLog.Writer.buffered_agrees_with_direct`.
-/

namespace RecordLog.Writer

open Session (Action)

/-- A direct writer stays one. -/
theorem exists_after_direct (v : Volume) (w : DirectWriter) (calls : List Action) :
    ∃ w', ((Writer.direct w).after v calls).writer = .direct w' := by
  induction calls using List.reverseRecOn with
  | nil => exact ⟨w, rfl⟩
  | append_singleton calls a ih =>
      obtain ⟨w₁, hw₁⟩ := ih
      rw [after_concat, hw₁]
      cases a <;> exact ⟨_, rfl⟩

theorem pending_after_direct (v : Volume) (w : DirectWriter) (calls : List Action) :
    ((Writer.direct w).after v calls).writer.pending = [] := by
  obtain ⟨w', hw'⟩ := exists_after_direct v w calls
  rw [hw', pending]

/-- **A buffered writer does what a direct one does, only later.** Let both begin on files that hold
nothing and have room for all that is taken in, and let them get the same calls. Let the system also
answer the syncs of both in the same way, say by success. Then the last call has the same result for
both. The file of the buffered writer with what the writer holds back is the file of the direct one.
After a flush, a sync or a close nothing is held back and the files are the same; and so they are
after the writers are given up. -/
theorem buffered_agrees_with_direct {v₁ v₂ : Volume} {d₁ d₂ : Descriptor} {id₁ id₂ : Nat}
    {m₁ m₂ : Bool} {r : Except SystemError Unit} (h₁ : v₁.IsTruncated d₁ id₁)
    (h₂ : v₂.IsTruncated d₂ id₂) (hsynced₁ : v₁.conditions.synced m₁ = r)
    (hsynced₂ : v₂.conditions.synced m₂ = r) (p : Bytes) (capacity : Nat) {calls : List Action}
    (hroom₁ : v₁.CanHold (Intake.after { path := p, synced := r } calls).2.taken.length)
    (hroom₂ : v₂.CanHold (Intake.after { path := p, synced := r } calls).2.taken.length) :
    let direct := (Writer.direct ⟨p, some d₁, m₁⟩).after v₁ calls
    let buffered := (Writer.buffered ⟨p, capacity, some ⟨d₂, []⟩, m₂⟩).after v₂ calls
    buffered.result = direct.result ∧
      ∃ x y, buffered.volume.content? id₂ = some x ∧ direct.volume.content? id₁ = some y ∧
        x ++ buffered.writer.pending = y ∧
        (∀ a ∈ calls.getLast?, a.Settles → buffered.writer.pending = [] ∧ x = y) ∧
        (buffered.writer.drop buffered.volume).content? id₂ = some y ∧
        (direct.writer.drop direct.volume).content? id₁ = some y := by
  intro direct buffered
  have hstart₁ := realizes_direct h₁ p m₁
  have hstart₂ := realizes_buffered h₂ p capacity m₂
  rw [hsynced₁] at hstart₁
  rw [hsynced₂] at hstart₂
  obtain ⟨y, hresult₁, -, hconditions₁, hdirect⟩ := hstart₁.after hroom₁
  obtain ⟨x, hresult₂, -, hconditions₂, hbuffered⟩ := hstart₂.after hroom₂
  have hpending : direct.writer.pending = [] := pending_after_direct v₁ ⟨p, some d₁, m₁⟩ calls
  have hy := hdirect.append_pending
  have hx := hbuffered.append_pending
  rw [hpending, List.append_nil] at hy
  refine ⟨hresult₂.trans hresult₁.symm, x, y, hbuffered.content_eq, hdirect.content_eq,
    hx.trans hy.symm, fun a ha hsettles => ?_, ?_, ?_⟩
  · have hnone := hstart₂.pending_after hroom₂ ha hsettles
    refine ⟨hnone, ?_⟩
    rw [hnone, List.append_nil] at hx
    exact hx.trans hy.symm
  · rw [(hbuffered.drop (hroom₂.congr hconditions₂)).1, hy]
  · rw [(hdirect.drop (hroom₁.congr hconditions₁)).1, hy]

/-- A volume with a single file, which holds nothing and has room for five bytes, and a buffer that
is filled to the brim and then written out. -/
theorem buffered_agrees_with_direct_at_brim :
    ∃ (v : Volume) (d : Descriptor) (calls : List Action),
      v = ⟨[], [⟨0o644, []⟩], [], { sizeLimit := some 5 }⟩ ∧
      d = { object := .file 0, writable := true } ∧
      calls = [.append [1, 2], .append [3, 4], .append [5], .flush, .sync] ∧
      v.IsTruncated d 0 ∧ v.conditions.synced true = .ok () ∧
      v.CanHold (Intake.after { path := [0x61], synced := .ok () } calls).2.taken.length ∧
      let direct := (Writer.direct ⟨[0x61], some d, true⟩).after v calls
      let buffered := (Writer.buffered ⟨[0x61], 4, some ⟨d, []⟩, true⟩).after v calls
      buffered.result = direct.result ∧
        ∃ x y, buffered.volume.content? 0 = some x ∧ direct.volume.content? 0 = some y ∧
          x ++ buffered.writer.pending = y ∧
          (∀ a ∈ calls.getLast?, a.Settles → buffered.writer.pending = [] ∧ x = y) ∧
          (buffered.writer.drop buffered.volume).content? 0 = some y ∧
          (direct.writer.drop direct.volume).content? 0 = some y := by
  let v : Volume := ⟨[], [⟨0o644, []⟩], [], { sizeLimit := some 5 }⟩
  let calls : List Action := [.append [1, 2], .append [3, 4], .append [5], .flush, .sync]
  have hroom :
      v.CanHold (Intake.after { path := [0x61], synced := .ok () } calls).2.taken.length := by
    rintro _ ⟨⟩
    exact Nat.le_refl 5
  exact ⟨v, _, calls, rfl, rfl, rfl, ⟨rfl, rfl⟩, rfl, hroom,
    buffered_agrees_with_direct ⟨rfl, rfl⟩ ⟨rfl, rfl⟩ rfl rfl [0x61] 4 hroom hroom⟩

end RecordLog.Writer
