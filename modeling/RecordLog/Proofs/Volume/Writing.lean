import RecordLog.Proofs.Volume.Content

/-!
# Writes in a row

Bytes are handed over to the system in pieces, since a write may take only the first of the bytes it
is given: each piece is written through the descriptor that the write before it left behind. On a
regular file this comes to one write of all the bytes, at the offset at which the first piece began.
That offset belongs to the descriptor and not to the file, so that the bytes come behind what the
file holds only if the two agree.

## Main definitions

* `RecordLog.Volume.Writes`, what is handed over by writes that succeed.
* `RecordLog.Volume.Refuses`.

## Main results

* `RecordLog.Volume.writes_writeAll`: what is not left over has been handed over.
* `RecordLog.Volume.Writes.content?_eq`: pieces of a content are as good as the whole of it.
* `RecordLog.Volume.overwritten_eq_append_iff`.
-/

namespace RecordLog.Volume

/-! ### Bytes at an offset -/

theorem length_overwritten (c : Bytes) (offset : Nat) (data : Bytes) :
    (overwritten c offset data).length = max c.length (offset + data.length) := by
  simp only [overwritten, List.length_append, List.length_take, List.length_replicate,
    List.length_drop]
  omega

/-- What is written between two parts of a content leaves the first and covers the second. -/
theorem overwritten_append (front rest data : Bytes) :
    overwritten (front ++ rest) front.length data = front ++ data ++ rest.drop data.length := by
  simp [overwritten, List.drop_append]

/-- Writing on behind what has just been written is writing all of it at once. -/
theorem overwritten_overwritten (c : Bytes) (offset : Nat) (x y : Bytes) :
    overwritten (overwritten c offset x) (offset + x.length) y = overwritten c offset (x ++ y) := by
  let front := c.take offset ++ List.replicate (offset - c.length) 0 ++ x
  have hfront : front.length = offset + x.length := by
    simp only [front, List.length_append, List.length_take, List.length_replicate]
    omega
  have hfirst : overwritten c offset x = front ++ c.drop (offset + x.length) := rfl
  rw [hfirst, ← hfront, overwritten_append, List.drop_drop, hfront]
  simp [front, overwritten, Nat.add_assoc]

/-- **Bytes that are written come behind a content if they are written at its end, and only
then.** -/
theorem overwritten_eq_append_iff {c data : Bytes} {offset : Nat} (hdata : data ≠ []) :
    overwritten c offset data = c ++ data ↔ offset = c.length := by
  constructor
  · intro h
    have hlength := congrArg List.length h
    have hpos : 0 < data.length := List.length_pos_iff.2 hdata
    rw [length_overwritten, List.length_append] at hlength
    omega
  · rintro rfl
    exact overwritten_length c data

/-! ### Handing over -/

/-- Bytes are handed over in pieces, each of them what a write takes. -/
inductive Writes : Volume → Descriptor → Bytes → Volume → Descriptor → Prop
  | nil (v : Volume) (d : Descriptor) : Writes v d [] v d
  | cons {v v₁ v₂ : Volume} {d d₁ d₂ : Descriptor} {data y : Bytes} {n : Nat} (hdata : data ≠ [])
      (h : v.write d data = .ok (n, v₁, d₁)) (rest : Writes v₁ d₁ y v₂ d₂) :
      Writes v d (data.take n ++ y) v₂ d₂

theorem Writes.trans {v v₁ v₂ : Volume} {d d₁ d₂ : Descriptor} {x y : Bytes}
    (h : Writes v d x v₁ d₁) (h' : Writes v₁ d₁ y v₂ d₂) : Writes v d (x ++ y) v₂ d₂ := by
  induction h with
  | nil => exact h'
  | cons hdata hwrite _ ih =>
      rw [List.append_assoc]
      exact .cons hdata hwrite (ih h')

/-- What a write takes is not nothing. -/
theorem take_ne_nil_of_write {v v' : Volume} {d d' : Descriptor} {data : Bytes} {n : Nat}
    (hdata : data ≠ []) (h : v.write d data = .ok (n, v', d')) : data.take n ≠ [] := by
  have hpos := write_pos hdata h
  have hdata : 0 < data.length := List.length_pos_iff.2 hdata
  rw [← List.length_pos_iff, List.length_take]
  omega

theorem Writes.eq_of_nil {v v' : Volume} {d d' : Descriptor} (h : Writes v d [] v' d') :
    v' = v ∧ d' = d := by
  generalize hx : ([] : Bytes) = x at h
  cases h with
  | nil => exact ⟨rfl, rfl⟩
  | cons hdata hwrite =>
      exact absurd (List.append_eq_nil_iff.1 hx.symm).1 (take_ne_nil_of_write hdata hwrite)

theorem Writes.writable {v v' : Volume} {d d' : Descriptor} {x : Bytes} (h : Writes v d x v' d')
    (hx : x ≠ []) : d.writable = true := by
  cases h with
  | nil => exact absurd rfl hx
  | cons hdata hwrite => exact (write_cases hdata hwrite).1

/-- **What is not left over has been handed over**, and nothing is left over unless a write fails.
-/
theorem writes_writeAll (v : Volume) (d : Descriptor) (data : Bytes) :
    let r := v.writeAll d data
    (r.result = .ok () ↔ r.rest = []) ∧
      ∃ x, data = x ++ r.rest ∧ v.Writes d x r.volume r.descriptor := by
  refine writeAll_induction (motive := fun v d data r => (r.result = .ok () ↔ r.rest = []) ∧
    ∃ x, data = x ++ r.rest ∧ v.Writes d x r.volume r.descriptor) ?_ ?_ ?_ v d data
  · intro v d
    exact ⟨iff_of_true rfl rfl, [], rfl, .nil v d⟩
  · intro v d data e hdata _
    exact ⟨iff_of_false nofun hdata, [], rfl, .nil v d⟩
  · rintro v v' d d' data n hdata hwrite ⟨hresult, x, hx, hwrites⟩
    refine ⟨hresult, data.take n ++ x, ?_, .cons hdata hwrite hwrites⟩
    rw [List.append_assoc, ← hx, List.take_append_drop]

/-- If the writing of bytes succeeds, all of them have been handed over. -/
theorem writes_of_writeAll_ok {v : Volume} {d : Descriptor} {data : Bytes}
    (h : (v.writeAll d data).result = .ok ()) :
    v.Writes d data (v.writeAll d data).volume (v.writeAll d data).descriptor := by
  obtain ⟨hresult, x, hx, hwrites⟩ := v.writes_writeAll d data
  rw [hresult.1 h, List.append_nil] at hx
  exact hx.symm ▸ hwrites

/-- Without a limit either all bytes are written or none. -/
theorem IsUnlimited.writeAll_cases {v : Volume} (hv : v.IsUnlimited) (d : Descriptor)
    (data : Bytes) :
    (∃ v' d', v.writeAll d data = ⟨.ok (), [], v', d'⟩) ∨
      ∃ e, v.writeAll d data = ⟨.error e, data, v, d⟩ := by
  by_cases hdata : data = []
  · subst hdata
    exact Or.inl ⟨v, d, writeAll_nil v d⟩
  cases hwrite : v.write d data with
  | error e => exact Or.inr ⟨e, writeAll_of_error hdata hwrite⟩
  | ok r =>
      obtain ⟨n, v', d'⟩ := r
      obtain rfl := hv.write_eq hdata hwrite
      rw [writeAll_of_write hdata hwrite, List.drop_length, writeAll_nil]
      exact Or.inl ⟨v', d', rfl⟩

/-- No bytes can be written through a descriptor. -/
def Refuses (v : Volume) (d : Descriptor) : Prop :=
  ∀ data, data ≠ [] → ∃ e, v.write d data = .error e

theorem Refuses.writeAll_eq {v : Volume} {d : Descriptor} (hv : v.Refuses d) {data : Bytes}
    (hdata : data ≠ []) :
    ∃ e, v.write d data = .error e ∧ v.writeAll d data = ⟨.error e, data, v, d⟩ := by
  obtain ⟨e, he⟩ := hv data hdata
  exact ⟨e, he, writeAll_of_error hdata he⟩

variable {v v' : Volume} {d d' : Descriptor} {id : Nat} {c x : Bytes}

/-- A write to a regular file puts what it takes at the offset and moves that behind it. -/
theorem write_file {data : Bytes} {n : Nat} (hd : d.object = .file id)
    (hc : v.content? id = some c) (hdata : data ≠ []) (h : v.write d data = .ok (n, v', d')) :
    v'.content? id = some (overwritten c d.offset (data.take n)) ∧
      d' = { d with offset := d.offset + (data.take n).length } := by
  have hle := write_le hdata h
  obtain ⟨-, ⟨hdevice, -⟩ | ⟨id', f, hfile, hf, -, -, rfl, rfl⟩⟩ := write_cases hdata h
  · rw [hd] at hdevice
    cases hdevice
  · rw [hd] at hfile
    cases hfile
    obtain ⟨f', hf', rfl⟩ := content?_eq_some_iff.1 hc
    rw [hf] at hf'
    cases hf'
    exact ⟨content?_setFile hf _, by rw [List.length_take, Nat.min_eq_left hle]⟩

/-- **Pieces that are written in a row are as good as the whole.** -/
theorem Writes.content?_eq (h : Writes v d x v' d') (hd : d.object = .file id)
    (hc : v.content? id = some c) (hx : x ≠ []) :
    v'.content? id = some (overwritten c d.offset x) ∧
      d' = { d with offset := d.offset + x.length } := by
  induction h generalizing c with
  | nil => exact absurd rfl hx
  | @cons v v₁ v₂ d d₁ d₂ data y n hdata hwrite rest ih =>
      obtain ⟨hc₁, rfl⟩ := write_file hd hc hdata hwrite
      by_cases hy : y = []
      · subst hy
        obtain ⟨rfl, rfl⟩ := rest.eq_of_nil
        rw [List.append_nil]
        exact ⟨hc₁, rfl⟩
      · obtain ⟨hc₂, rfl⟩ := ih hd hc₁ hy
        refine ⟨?_, ?_⟩
        · rw [hc₂, overwritten_overwritten]
        · rw [List.length_append, Nat.add_assoc]

end RecordLog.Volume
