import RecordLog.Proofs.Coding.InPlace
import RecordLog.Proofs.Coding.Progress

/-!
# Logs of records

A record is a number that identifies it and a key. Its code is that of the number and then that of
the key. A log is the codes of records one after the other; it is read record by record, until
nothing is left or a record cannot be taken. A log that has been cut anywhere gives the records that
are there in whole, and then either its end or corruption, but never a record that is not one of
those that were written.

## Main definitions

* `RecordLog.Record`, with `Record.fields`, `Record.encode` and `Record.Fits`.
* `RecordLog.Record.encode?`, what is in an empty buffer when a record has been put into it.
* `RecordLog.Decoder.readLog`.
* `RecordLog.Record.ReadsBack records content k`: what is read back of the records from a content is
  the first `k` of them, all that are there.

## Main results

* `RecordLog.Record.exists_readsBack_of_prefix`: so it is for every cut.
-/

namespace RecordLog

/-- A record: a number that identifies it, and a key. -/
structure Record where
  id : UInt64
  key : Bytes
  deriving DecidableEq, Repr

namespace Record

/-- The fields of a record in the order in which they are written. -/
def fields (r : Record) : List Field := [.varint64 r.id, .lengthPrefixed r.key]

/-- The kinds of the fields of a record. -/
def kinds : List Field.Kind := [.varint64, .lengthPrefixed]

/-- The code of a record. -/
def encode (r : Record) : Bytes := Field.putAll [] r.fields

/-- What an empty buffer holds when the fields of a record have been put into it, unless its key is
too long. -/
def encode? (r : Record) : Option Bytes := Field.putAll? [] r.fields

/-- A record whose key has a length of 32 bits. -/
def Fits (r : Record) : Prop := r.key.length < UInt32.size

theorem map_kind_fields (r : Record) : r.fields.map Field.kind = kinds := rfl

theorem encode_eq (r : Record) : r.encode = r.fields.flatMap Field.encode :=
  Field.putAll_nil_eq r.fields

theorem encode_ne_nil (r : Record) : r.encode ≠ [] := by
  intro h
  rw [encode_eq, List.flatMap_eq_nil_iff] at h
  exact Field.encode_ne_nil _ (h _ List.mem_cons_self)

theorem fits_fields {r : Record} (h : r.Fits) : ∀ f ∈ r.fields, f.Fits := by
  intro f hf
  simp only [fields, List.mem_cons, List.not_mem_nil, or_false] at hf
  rcases hf with rfl | rfl
  · trivial
  · exact h

/-- **A record that fits is put into a buffer as its code.** -/
theorem encode?_eq {r : Record} (h : r.Fits) : r.encode? = some r.encode :=
  Field.putAll?_eq (fits_fields h) []

end Record

namespace Decoder

/-! ### Reading a log -/

theorem readAll_encode_append {r : Record} (h : r.Fits) (t : Bytes) :
    readAll ⟨r.encode ++ t⟩ Record.kinds = (r.fields, .ok (), ⟨t⟩) := by
  have := readAll_append (Record.fits_fields h) t []
  rwa [List.append_nil, Record.map_kind_fields, ← Record.encode_eq, readAll, List.append_nil]
    at this

/-- Takes records until nothing remains or one cannot be taken: the fields of those that were taken,
and what was wrong with the next one if it came to that. -/
def readLog (d : Decoder) : List (List Field) × Except Fault Unit :=
  if d.remaining = [] then
    ([], .ok ())
  else
    match h : d.readAll Record.kinds with
    | (_, .error e, _) => ([], .error e)
    | (fs, .ok (), d') =>
      have := length_lt_of_readAll (List.cons_ne_nil _ _) h
      let r := readLog d'
      (fs :: r.1, r.2)
termination_by d.remaining.length

theorem readLog_nil : readLog ⟨[]⟩ = ([], .ok ()) := by
  rw [readLog, if_pos rfl]

theorem readLog_of_ok {d d' : Decoder} {fs : List Field} (hne : d.remaining ≠ [])
    (h : d.readAll Record.kinds = (fs, .ok (), d')) :
    d.readLog = (fs :: d'.readLog.1, d'.readLog.2) := by
  rw [readLog, if_neg hne]
  split
  · simp_all
  · simp_all

theorem readLog_of_error {d d' : Decoder} {fs : List Field} {e : Fault}
    (hne : d.remaining ≠ []) (h : d.readAll Record.kinds = (fs, .error e, d')) :
    d.readLog = ([], .error e) := by
  rw [readLog, if_neg hne]
  split
  · simp_all
  · simp_all

/-- Records are taken from the front of a log, and reading goes on behind them. -/
theorem readLog_append {rs : List Record} (hfit : ∀ r ∈ rs, r.Fits) (t : Bytes) :
    readLog ⟨rs.flatMap Record.encode ++ t⟩ =
      (rs.map Record.fields ++ (readLog ⟨t⟩).1, (readLog ⟨t⟩).2) := by
  induction rs with
  | nil => rfl
  | cons r rs ih =>
      have hread := readAll_encode_append (hfit r List.mem_cons_self)
        (rs.flatMap Record.encode ++ t)
      rw [List.flatMap_cons, List.append_assoc, readLog_of_ok (by simp [r.encode_ne_nil]) hread,
        ih fun r' hr' => hfit r' (List.mem_cons_of_mem _ hr')]
      rfl

end Decoder

/-! ### Reading a log that has been cut -/

namespace Record

open Decoder (readLog)

/-- What is read back from `content` of the records `rs`: the first `k` of them, which are as many
as fit in it. Then the log ends if that is all there is, and is corrupt if not. -/
structure ReadsBack (rs : List Record) (content : Bytes) (k : Nat) : Prop where
  isWhole : Bytes.IsWhole encode rs content.length k
  taken_eq : (readLog ⟨content⟩).1 = (rs.take k).map fields
  ends_iff : (readLog ⟨content⟩).2 = .ok () ↔
    content.length = ((rs.take k).flatMap encode).length
  corrupt : ∀ e, (readLog ⟨content⟩).2 = .error e → e.status.code = .corruption

/-- A log in which nothing is missing gives all records. -/
theorem readsBack_length {rs : List Record} (hfit : ∀ r ∈ rs, r.Fits) :
    ReadsBack rs (rs.flatMap encode) rs.length := by
  have hread := Decoder.readLog_append hfit []
  rw [List.append_nil, Decoder.readLog_nil, List.append_nil] at hread
  exact ⟨Bytes.isWhole_length (Nat.le_refl _), by rw [hread, List.take_length],
    by simp [hread, List.take_length], fun e _ => e.code_status⟩

/-- A record of which some bytes are there, but not all, is corrupt. -/
theorem exists_readLog_take_encode {r : Record} (h : r.Fits) {j : Nat} (hpos : 0 < j)
    (hj : j < r.encode.length) : ∃ e, readLog ⟨r.encode.take j⟩ = ([], .error e) := by
  have hlength : (r.encode.take j).length = j := by
    rw [List.length_take]
    omega
  have hne : r.encode.take j ≠ [] := by
    rw [← List.length_pos_iff, hlength]
    exact hpos
  have hproper : r.encode.take j ≠ r.fields.flatMap Field.encode := by
    intro heq
    rw [← encode_eq] at heq
    rw [heq] at hlength
    omega
  obtain ⟨before, f, more, i, -, -, -, hread⟩ := Decoder.exists_readAll_cut (fits_fields h)
    (r.encode_eq ▸ List.take_prefix j r.encode) hproper
  exact ⟨_, Decoder.readLog_of_error hne hread⟩

/-- Short of the end of the next record nothing is taken, and there is an end only if there are no
bytes. -/
theorem readLog_of_endsShort {after : List Record} (hfit : ∀ r ∈ after, r.Fits) {rest : Bytes}
    (h : Bytes.EndsShort encode after rest) :
    (readLog ⟨rest⟩).1 = [] ∧ ((readLog ⟨rest⟩).2 = .ok () ↔ rest = []) := by
  by_cases hrest : rest = []
  · rw [hrest, Decoder.readLog_nil]
    simp
  · cases after with
    | nil => exact absurd h hrest
    | cons r more =>
        obtain ⟨j, hj, rfl⟩ := h
        have hpos : 0 < j := by
          refine Nat.pos_of_ne_zero fun hzero => hrest ?_
          rw [hzero, List.take_zero]
        obtain ⟨e, he⟩ := exists_readLog_take_encode (hfit r List.mem_cons_self) hpos hj
        rw [he]
        simp [hrest]

/-- **However a log is cut, what is read back from it is what was written.** -/
theorem exists_readsBack_of_prefix {rs : List Record} (hfit : ∀ r ∈ rs, r.Fits) {p : Bytes}
    (hp : p <+: rs.flatMap encode) : ∃ k, ReadsBack rs p k := by
  obtain ⟨before, after, rest, rfl, rfl, hend⟩ := Bytes.exists_cut encode rs hp
  have hbefore : ∀ r ∈ before, r.Fits := fun r hr => hfit r (List.mem_append_left _ hr)
  have hafter : ∀ r ∈ after, r.Fits := fun r hr => hfit r (List.mem_append_right _ hr)
  have hread := Decoder.readLog_append hbefore rest
  obtain ⟨htaken, hends⟩ := readLog_of_endsShort hafter hend
  refine ⟨before.length, Bytes.isWhole_of_endsShort before hend, ?_, ?_, fun e _ => e.code_status⟩
  · rw [hread, htaken, List.append_nil, List.take_left]
  · rw [hread, List.take_left, List.length_append, Nat.add_eq_left, List.length_eq_zero_iff]
    exact hends

end Record

end RecordLog
