import RecordLog.Coding.Decoder
import RecordLog.Proofs.Bytes.Cut
import RecordLog.Proofs.Coding.Boundary

/-!
# Reading what has been cut short

A decoder that takes fields one after the other stops at the first one that it cannot take. Over
the codes of fields with any bytes behind them it takes these fields and stands behind them. If the
bytes end early, it takes the fields that are there in whole, finds the next one corrupt, and is
left with what is there of it.

## Main definitions

* `RecordLog.Decoder.readAll`.

## Main results

* `RecordLog.Decoder.readAll_append`: fields are taken whatever is read behind them.
* `RecordLog.Decoder.readAll_of_truncated`: a cut is found at the field that it goes through.
-/

namespace RecordLog

theorem Field.putAll_nil_eq (fs : List Field) : Field.putAll [] fs = fs.flatMap Field.encode := by
  rw [Field.putAll_eq_append, List.nil_append]

namespace Decoder

/-- Every fault is reported as corruption. -/
theorem Fault.code_status (e : Fault) : e.status.code = .corruption := Status.code_new _ _ _

/-! ### One field -/

theorem read_of_take?_eq_some {k : Field.Kind} {src rest : Bytes} {f : Field}
    (h : Field.take? k src = some (f, rest)) : read ⟨src⟩ k = (.ok f, ⟨rest⟩) := by
  simp [read, h]

theorem read_of_take?_eq_none {k : Field.Kind} {src : Bytes} (h : Field.take? k src = none) :
    read ⟨src⟩ k = (.error (fault k src.length), ⟨src⟩) := by
  simp [read, h]

theorem read_encode_append {f : Field} (h : f.Fits) (t : Bytes) :
    read ⟨f.encode ++ t⟩ f.kind = (.ok f, ⟨t⟩) :=
  read_of_take?_eq_some (Field.take?_encode_append h t)

theorem read_take_encode {f : Field} (h : f.Fits) {j : Nat} (hj : j < f.encode.length) :
    read ⟨f.encode.take j⟩ f.kind =
      (.error (fault f.kind (f.encode.take j).length), ⟨f.encode.take j⟩) :=
  read_of_take?_eq_none (Field.take?_take_encode h hj)

/-! ### Fields in a row -/

/-- Takes fields of the given kinds one after the other, up to the first that cannot be taken: the
fields, what was wrong if it came to that, and where the decoder then stands. -/
def readAll (d : Decoder) : List Field.Kind → List Field × Except Fault Unit × Decoder
  | [] => ([], .ok (), d)
  | k :: ks =>
    match d.read k with
    | (.error e, d) => ([], .error e, d)
    | (.ok f, d) =>
      let r := readAll d ks
      (f :: r.1, r.2)

theorem readAll_cons_of_error {d d' : Decoder} {k : Field.Kind} {e : Fault}
    (h : d.read k = (.error e, d')) (ks : List Field.Kind) :
    d.readAll (k :: ks) = ([], .error e, d') := by
  simp [readAll, h]

/-- Fields are taken from the front of their codes, and reading goes on behind them. -/
theorem readAll_append {fs : List Field} (hfit : ∀ f ∈ fs, f.Fits) (t : Bytes)
    (ks : List Field.Kind) :
    readAll ⟨fs.flatMap Field.encode ++ t⟩ (fs.map Field.kind ++ ks) =
      (fs ++ (readAll ⟨t⟩ ks).1, (readAll ⟨t⟩ ks).2) := by
  induction fs with
  | nil => rfl
  | cons f fs ih =>
      have hread := read_encode_append (hfit f List.mem_cons_self) (fs.flatMap Field.encode ++ t)
      have hrest := ih fun g hg => hfit g (List.mem_cons_of_mem _ hg)
      simp only [List.flatMap_cons, List.append_assoc, List.map_cons, List.cons_append, readAll,
        hread, hrest]

/-- A proper prefix of the codes of fields ends short of the end of the code of one of them. The
fields before this one are taken, and then reading fails. -/
theorem exists_readAll_cut {fs : List Field} (hfit : ∀ f ∈ fs, f.Fits) {p : Bytes}
    (hp : p <+: fs.flatMap Field.encode) (hne : p ≠ fs.flatMap Field.encode) :
    ∃ before f more j, fs = before ++ f :: more ∧ j < f.encode.length ∧
      p = before.flatMap Field.encode ++ f.encode.take j ∧
      readAll ⟨p⟩ (fs.map Field.kind) =
        (before, .error (fault f.kind (f.encode.take j).length), ⟨f.encode.take j⟩) := by
  obtain ⟨before, after, rest, rfl, rfl, hend⟩ := Bytes.exists_cut Field.encode fs hp
  cases after with
  | nil =>
      rw [Bytes.EndsShort] at hend
      simp [hend] at hne
  | cons f more =>
      obtain ⟨j, hj, rfl⟩ := hend
      have hbefore : ∀ g ∈ before, g.Fits := fun g hg => hfit g (List.mem_append_left _ hg)
      have hf : f.Fits := hfit f (List.mem_append_right _ List.mem_cons_self)
      have hcut := readAll_cons_of_error (read_take_encode hf hj) (more.map Field.kind)
      refine ⟨before, f, more, j, rfl, hj, rfl, ?_⟩
      rw [List.map_append, readAll_append hbefore, List.map_cons, hcut, List.append_nil]

/-- **A cut is found at the field that it goes through.** If a proper prefix of the codes of fields
is read, then the fields that are there in whole are taken; the next one is reported as corrupt,
and the decoder is left with the bytes behind the last whole field. -/
theorem readAll_of_truncated {fs : List Field} (hfit : ∀ f ∈ fs, f.Fits) {p : Bytes}
    (hp : p <+: Field.putAll [] fs) (hne : p ≠ Field.putAll [] fs) :
    ∃ k f rest, Bytes.IsWhole Field.encode fs p.length k ∧ fs[k]? = some f ∧
      p = Field.putAll [] (fs.take k) ++ rest ∧
      readAll ⟨p⟩ (fs.map Field.kind) =
        (fs.take k, .error (fault f.kind rest.length), ⟨rest⟩) ∧
      (fault f.kind rest.length).status.code = .corruption := by
  simp only [Field.putAll_nil_eq] at hp hne ⊢
  obtain ⟨before, f, more, j, rfl, hj, hcut, hread⟩ := exists_readAll_cut hfit hp hne
  have hend : Bytes.EndsShort Field.encode (f :: more) (f.encode.take j) := ⟨j, hj, rfl⟩
  have hwhole : Bytes.IsWhole Field.encode (before ++ f :: more) p.length before.length := by
    rw [hcut]
    exact Bytes.isWhole_of_endsShort before hend
  refine ⟨before.length, f, f.encode.take j, hwhole, ?_, ?_, ?_, Fault.code_status _⟩
  · rw [List.getElem?_append_right (Nat.le_refl _), Nat.sub_self, List.getElem?_cons_zero]
  · rw [List.take_left, hcut]
  · rw [List.take_left, hread]

/-- A cut through the body of a length-prefixed value whose header is still there. -/
theorem readAll_of_truncated_body :
    ∃ fs p, fs = [.varint64 300, .lengthPrefixed [0x61, 0x62, 0x63]] ∧
      p = [0xac, 0x02, 0x03, 0x61] ∧
      (∀ f ∈ fs, f.Fits) ∧ p <+: Field.putAll [] fs ∧ p ≠ Field.putAll [] fs ∧
      ∃ k f rest, Bytes.IsWhole Field.encode fs p.length k ∧ fs[k]? = some f ∧
        p = Field.putAll [] (fs.take k) ++ rest ∧
        readAll ⟨p⟩ (fs.map Field.kind) =
          (fs.take k, .error (fault f.kind rest.length), ⟨rest⟩) ∧
        (fault f.kind rest.length).status.code = .corruption := by
  have hfit : ∀ f ∈ [.varint64 300, .lengthPrefixed [0x61, 0x62, 0x63]], Field.Fits f := by
    simp [Field.Fits, UInt32.size]
  have hcodes : Field.putAll [] [.varint64 300, .lengthPrefixed [0x61, 0x62, 0x63]] =
      [0xac, 0x02, 0x03, 0x61, 0x62, 0x63] := by
    decide +kernel
  have hp : [0xac, 0x02, 0x03, 0x61] <+:
      Field.putAll [] [.varint64 300, .lengthPrefixed [0x61, 0x62, 0x63]] := by
    rw [hcodes]
    decide
  have hne : [0xac, 0x02, 0x03, 0x61] ≠
      Field.putAll [] [.varint64 300, .lengthPrefixed [0x61, 0x62, 0x63]] := by
    rw [hcodes]
    decide
  exact ⟨_, _, rfl, rfl, hfit, hp, hne, readAll_of_truncated hfit hp hne⟩

end Decoder

end RecordLog
