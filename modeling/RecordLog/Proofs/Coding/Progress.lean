import RecordLog.Proofs.Coding.Grammar
import RecordLog.Proofs.Coding.Truncation

/-!
# What a read takes

Whatever the bytes are, a read that succeeds takes some of them away at the front, at least one, and
leaves the others as they are. So reading on and on comes to an end.

## Main results

* `RecordLog.Field.exists_front_of_take?`: a field is taken from the front.
* `RecordLog.Decoder.length_lt_of_read` and `RecordLog.Decoder.length_lt_of_readAll`.
-/

namespace RecordLog

/-- Bytes are split behind the first of them, but not before. -/
theorem Bytes.exists_front {src : Bytes} {k : Nat} (hpos : 0 < k) (hle : k ≤ src.length) :
    ∃ q, q ≠ [] ∧ src = q ++ src.drop k := by
  refine ⟨src.take k, ?_, (List.take_append_drop k src).symm⟩
  rw [← List.length_pos_iff, List.length_take]
  omega

theorem Varint.exists_front_of_take32? {src rest : Bytes} {n : UInt32}
    (h : take32? src = some (n, rest)) : ∃ q, q ≠ [] ∧ src = q ++ rest := by
  obtain ⟨⟨n, k⟩, hread, hrest⟩ := Option.map_eq_some_iff.1 h
  cases hrest
  obtain ⟨hpos, hle⟩ := decode32?_bounds hread
  exact Bytes.exists_front hpos hle

theorem Varint.exists_front_of_take64? {src rest : Bytes} {n : UInt64}
    (h : take64? src = some (n, rest)) : ∃ q, q ≠ [] ∧ src = q ++ rest := by
  obtain ⟨⟨n, k⟩, hread, hrest⟩ := Option.map_eq_some_iff.1 h
  cases hrest
  obtain ⟨hpos, hle⟩ := decode64?_bounds hread
  exact Bytes.exists_front hpos hle

theorem Fixed.exists_front_of_take? {w n : Nat} {src rest : Bytes} (hw : 0 < w)
    (h : take? w src = some (n, rest)) : ∃ q, q ≠ [] ∧ src = q ++ rest := by
  rw [take?, Option.ite_none_right_eq_some] at h
  obtain ⟨hle, hrest⟩ := h
  cases hrest
  exact Bytes.exists_front hw hle

theorem LengthPrefixed.exists_front_of_take? {src b rest : Bytes}
    (h : take? src = some (b, rest)) : ∃ q, q ≠ [] ∧ src = q ++ rest := by
  unfold take? at h
  split at h
  · cases h
  · rename_i n body hn
    rw [Option.ite_none_right_eq_some] at h
    obtain ⟨-, hrest⟩ := h
    cases hrest
    obtain ⟨q, hq, rfl⟩ := Varint.exists_front_of_take32? hn
    exact ⟨q ++ body.take n.toNat, by simp [hq], by simp⟩

/-- **A field is taken from the front of the bytes**, and is at least one of them. -/
theorem Field.exists_front_of_take? {k : Kind} {src rest : Bytes} {f : Field}
    (h : take? k src = some (f, rest)) : ∃ q, q ≠ [] ∧ src = q ++ rest := by
  cases k <;> simp only [take?, Option.map_eq_some_iff] at h <;> obtain ⟨⟨x, r⟩, hx, hf⟩ := h <;>
    cases hf
  · exact Fixed.exists_front_of_take? (by decide) hx
  · exact Fixed.exists_front_of_take? (by decide) hx
  · exact Fixed.exists_front_of_take? (by decide) hx
  · exact Varint.exists_front_of_take32? hx
  · exact Varint.exists_front_of_take64? hx
  · exact LengthPrefixed.exists_front_of_take? hx

namespace Decoder

theorem length_lt_of_read {d d' : Decoder} {k : Field.Kind} {f : Field}
    (h : d.read k = (.ok f, d')) : d'.remaining.length < d.remaining.length := by
  unfold read at h
  split at h
  · rename_i f' rest htake
    cases h
    obtain ⟨q, hq, hsrc⟩ := Field.exists_front_of_take? htake
    have := List.length_pos_iff.2 hq
    rw [hsrc, List.length_append]
    change rest.length < _
    omega
  · cases h

theorem eq_of_read_error {d d' : Decoder} {k : Field.Kind} {e : Fault}
    (h : d.read k = (.error e, d')) : d' = d := by
  unfold read at h
  split at h
  · cases h
  · cases h
    rfl

theorem length_readAll_le (d : Decoder) (ks : List Field.Kind) :
    (d.readAll ks).2.2.remaining.length ≤ d.remaining.length := by
  induction ks generalizing d with
  | nil => exact Nat.le_refl _
  | cons k ks ih =>
      unfold readAll
      split
      · rename_i hread
        obtain rfl := eq_of_read_error hread
        exact Nat.le_refl _
      · rename_i hread
        exact Nat.le_of_lt (Nat.lt_of_le_of_lt (ih _) (length_lt_of_read hread))

/-- Fields that have been taken make what remains shorter, unless there are none. -/
theorem length_lt_of_readAll {d d' : Decoder} {ks : List Field.Kind} {fs : List Field}
    (hks : ks ≠ []) (h : d.readAll ks = (fs, .ok (), d')) :
    d'.remaining.length < d.remaining.length := by
  cases ks with
  | nil => exact absurd rfl hks
  | cons k ks =>
      unfold readAll at h
      split at h
      · cases h
      · rename_i d₁ hread
        have hle := length_readAll_le d₁ ks
        rw [(Prod.mk.inj h).2] at hle
        exact Nat.lt_of_le_of_lt hle (length_lt_of_read hread)

end Decoder

end RecordLog
