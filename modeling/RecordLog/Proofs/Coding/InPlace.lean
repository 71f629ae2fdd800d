import RecordLog.Proofs.Coding.Boundary

/-!
# Writing in place and appending

The code of a field is appended to a buffer or written over the first bytes of a destination.
Variable-width codes that are appended have been written in a scratch buffer before, and of a byte
string the code of its length is written first and its bytes behind that. Scratch buffers are always
long enough, and all of it comes to copying one and the same code: behind what a buffer holds,
whatever that is, or over the first bytes of a destination, just if it has as many bytes as the
code.

## Main results

* `RecordLog.Varint.put32?_eq` and `RecordLog.Varint.put64?_eq`: no scratch buffer is too short.
* `RecordLog.Field.put?_eq`, `RecordLog.Field.putAll?_eq` and `RecordLog.Field.write?_eq`.
* `RecordLog.Field.written_as_appended`.
-/

namespace RecordLog

/-! ### Variable-width codes -/

namespace Varint

/-- **A scratch buffer that is long enough for a code** is left with the code at its front. -/
theorem putThrough?_eq {write : Bytes → Option (Bytes × Nat)} {scratchSize n : Nat}
    (hwrite : ∀ dst, write dst = (dst.copy? 0 (encode n)).map fun dst => (dst, size n))
    (h : size n ≤ scratchSize) (buffer : Bytes) :
    putThrough? scratchSize write buffer = some (buffer ++ encode n) := by
  have hroom : (encode n).length ≤ (List.replicate scratchSize (0 : UInt8)).length := by
    rwa [length_encode, List.length_replicate]
  rw [putThrough?, hwrite, Bytes.copy?_zero_of_le hroom, ← length_encode]
  simp [Bytes.front?_append]

theorem put64?_eq (buffer : Bytes) (v : UInt64) :
    put64? buffer v = some (buffer ++ encode v.toNat) :=
  putThrough?_eq (write64?_eq · v) (size_le_maxSize64 v) buffer

theorem put32?_eq (buffer : Bytes) (v : UInt32) :
    put32? buffer v = some (buffer ++ encode v.toNat) :=
  putThrough?_eq (write32?_eq · v) (size_le_maxSize32 v) buffer

end Varint

/-! ### Byte strings behind their length -/

namespace LengthPrefixed

variable {b : Bytes}

theorem length?_of_lt (h : b.length < UInt32.size) : length? b = some (.ofNat b.length) := if_pos h

theorem put?_eq (h : b.length < UInt32.size) (buffer : Bytes) :
    put? buffer b = some (buffer ++ encode b) := by
  simp only [put?, length?_of_lt h, Option.bind_eq_bind, Option.bind_some, Varint.put32?_eq,
    UInt32.toNat_ofNat_of_lt' h, encode, List.append_assoc]
  rfl

/-- The bytes are written right behind the code of their length. -/
theorem write?_eq (h : b.length < UInt32.size) (dst : Bytes) :
    write? dst b =
      (dst.copy? 0 (encode b)).map fun dst => (dst, Varint.size b.length + b.length) := by
  rw [encode, Bytes.copy?_append, Varint.length_encode, Nat.zero_add]
  simp only [write?, length?_of_lt h, Option.bind_eq_bind, Option.bind_some, Varint.write32?_eq,
    UInt32.toNat_ofNat_of_lt' h]
  cases dst.copy? 0 (Varint.encode b.length) with
  | none => rfl
  | some dst => cases hcopy : dst.copy? (Varint.size b.length) b <;> simp [hcopy]

end LengthPrefixed

/-! ### Fields -/

namespace Field

variable {f : Field}

theorem length_encode (h : f.Fits) : f.encode.length = f.size := by
  cases f with
  | fixed16 v | fixed32 v | fixed64 v => exact Fixed.length_toBytes _ _
  | varint32 v =>
      rw [encode, Varint.length_encode, size, Varint.size64_eq, UInt32.toNat_toUInt64]
  | varint64 v => rw [encode, Varint.length_encode, size, Varint.size64_eq]
  | lengthPrefixed b =>
      have hlength : (UInt64.ofNat b.length).toNat = b.length :=
        UInt64.toNat_ofNat_of_lt' (Nat.lt_trans h (by decide))
      rw [encode, LengthPrefixed.encode, List.length_append, Varint.length_encode, size,
        Varint.size64_eq, hlength]

/-- **A field is appended as its code.** -/
theorem put?_eq (h : f.Fits) (buffer : Bytes) : put? buffer f = some (put buffer f) := by
  cases f with
  | fixed16 v | fixed32 v | fixed64 v => rfl
  | varint32 v => exact Varint.put32?_eq buffer v
  | varint64 v => exact Varint.put64?_eq buffer v
  | lengthPrefixed b => exact LengthPrefixed.put?_eq h buffer

/-- Fields are appended as their codes, one after the other. -/
theorem putAll?_eq {fs : List Field} (h : ∀ f ∈ fs, f.Fits) (buffer : Bytes) :
    putAll? buffer fs = some (putAll buffer fs) := by
  induction fs generalizing buffer with
  | nil => rfl
  | cons f fs ih =>
      obtain ⟨hf, hfs⟩ := List.forall_mem_cons.1 h
      rw [putAll?, List.foldlM_cons, put?_eq hf, Option.bind_eq_bind, Option.bind_some]
      exact ih hfs (put buffer f)

/-- **A field is written in place by copying its code.** -/
theorem write?_eq (h : f.Fits) (dst : Bytes) :
    write? dst f = (dst.copy? 0 f.encode).map fun dst => (dst, f.encode.length) := by
  cases f with
  | fixed16 v | fixed32 v | fixed64 v =>
      rw [encode, Fixed.length_toBytes]
      cases hcopy : dst.copy? 0 (Fixed.toBytes _ v.toNat) <;> simp [write?, Fixed.write?, hcopy]
  | varint32 v => rw [encode, Varint.length_encode]; exact Varint.write32?_eq dst v
  | varint64 v => rw [encode, Varint.length_encode]; exact Varint.write64?_eq dst v
  | lengthPrefixed b =>
      rw [encode, LengthPrefixed.encode, List.length_append, Varint.length_encode]
      exact LengthPrefixed.write?_eq h dst

/-- **The same bytes are written in place as are appended**, whatever the buffer held, and they
take as much space as the size of the field says. Writing in place fails just if the destination
is shorter than that; otherwise it changes no byte behind them and says how many they are. -/
theorem written_as_appended (h : f.Fits) :
    (∀ buffer, put? buffer f = some (buffer ++ f.encode)) ∧ f.encode.length = f.size ∧
      ∀ dst, (write? dst f = none ↔ dst.length < f.encode.length) ∧
        (f.encode.length ≤ dst.length →
          write? dst f = some (f.encode ++ dst.drop f.encode.length, f.encode.length)) := by
  refine ⟨put?_eq h, length_encode h, fun dst => ⟨?_, fun hdst => ?_⟩⟩
  · rw [write?_eq h, Option.map_eq_none_iff, Bytes.copy?_zero_eq_none_iff]
  · rw [write?_eq h, Bytes.copy?_zero_of_le hdst]
    rfl

/-- Two bytes behind their length need room for three. -/
theorem written_as_appended_prefixed :
    ∃ f : Field, f = .lengthPrefixed [0x61, 0x62] ∧ f.Fits ∧
      put? [0xff] f = some [0xff, 0x02, 0x61, 0x62] ∧ write? [0x00, 0x00] f = none ∧
      write? [0x00, 0x00, 0x00, 0x00] f = some ([0x02, 0x61, 0x62, 0x00], 3) := by
  have hfits : Field.Fits (.lengthPrefixed [0x61, 0x62]) := by simp [Fits, UInt32.size]
  have hcode : Field.encode (.lengthPrefixed [0x61, 0x62]) = [0x02, 0x61, 0x62] := by
    decide +kernel
  obtain ⟨hput, -, hwrite⟩ := written_as_appended hfits
  rw [hcode] at hput hwrite
  exact ⟨_, rfl, hfits, hput _, (hwrite _).1.2 (by decide), (hwrite _).2 (by decide)⟩

end Field

end RecordLog
