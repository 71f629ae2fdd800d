import RecordLog.Status.Stored
import RecordLog.Proofs.Coding.Boundary

/-!
# Which byte strings are blocks

A byte string is a block if it is long enough for a header, if the header declares just as many
bytes as come behind it, and if the number in it is that of a failure. These are the blocks of
failures whose messages have a length of 32 bits, and no others. From a block a status is read; of
any other byte string the first thing that is wrong with it is reported.

## Main definitions

* `RecordLog.Status.IsMeasured` and `RecordLog.Status.IsBlock`.
* `RecordLog.Status.Stored.Reads`, what is read from a byte string.

## Main results

* `RecordLog.Status.isBlock_iff`: blocks are what failures are stored as.
* `RecordLog.Status.Stored.ofEncoded_eq_iff`: reading comes to that and nothing else.
-/

namespace RecordLog.Status

/-- A byte string has a header, which declares as many bytes as come behind it. -/
structure IsMeasured (b : Bytes) : Prop where
  header_le : blockHeader ≤ b.length
  declared_eq : Fixed.ofBytes (b.take 4) = b.length - blockHeader

/-- A byte string is a block: it is measured, and has the number of a failure. -/
structure IsBlock (b : Bytes) : Prop extends IsMeasured b where
  exists_number : ∃ number, b[4]? = some number ∧ 1 ≤ number ∧ number ≤ Code.maxNumber

/-- A byte string that is long enough for it has four bytes, a number and a message. -/
theorem exists_eq_cons {b : Bytes} (h : blockHeader ≤ b.length) :
    ∃ h₀ h₁ h₂ h₃ number message, b = h₀ :: h₁ :: h₂ :: h₃ :: number :: message :=
  match b, h with
  | h₀ :: h₁ :: h₂ :: h₃ :: number :: message, _ => ⟨h₀, h₁, h₂, h₃, number, message, rfl⟩

theorem isMeasured_cons_iff {h₀ h₁ h₂ h₃ number : UInt8} {message : Bytes} :
    IsMeasured (h₀ :: h₁ :: h₂ :: h₃ :: number :: message) ↔
      Fixed.ofBytes [h₀, h₁, h₂, h₃] = message.length :=
  ⟨fun h => h.declared_eq, fun h => ⟨Nat.le_add_left blockHeader message.length, h⟩⟩

/-! ### Blocks of failures -/

theorem one_le_number {c : Code} (h : c ≠ .ok) : 1 ≤ c.number := by cases c <;> trivial

theorem isBlock_block {f : Failure} (h : f.message.length < UInt32.size) : IsBlock f.block := by
  have hdeclared : Fixed.ofBytes (Fixed.toBytes 4 f.message.length) = f.message.length := by
    rw [Fixed.ofBytes_toBytes]
    exact Nat.mod_eq_of_lt h
  exact ⟨isMeasured_cons_iff.2 hdeclared, f.code.number, rfl, one_le_number f.code_ne_ok,
    f.code.number_le_maxNumber⟩

/-- The number in a block is that of a code other than `ok`. -/
theorem exists_code_of_isBlock {b : Bytes} (h : IsBlock b) :
    ∃ c : Code, c ≠ .ok ∧ b[4]? = some c.number := by
  obtain ⟨number, hnumber, hpos, hle⟩ := h.exists_number
  obtain ⟨c, rfl⟩ := Code.exists_number_eq hle
  refine ⟨c, ?_, hnumber⟩
  rintro rfl
  exact absurd hpos (by decide)

theorem exists_failure_of_isBlock {b : Bytes} (h : IsBlock b) :
    ∃ f : Failure, f.message.length < UInt32.size ∧ f.block = b := by
  obtain ⟨c, hfailure, hnumber⟩ := exists_code_of_isBlock h
  obtain ⟨h₀, h₁, h₂, h₃, _, message, rfl⟩ := exists_eq_cons h.header_le
  cases hnumber
  have hdeclared := isMeasured_cons_iff.1 h.toIsMeasured
  refine ⟨⟨c, message, hfailure⟩, ?_, ?_⟩
  · have hlt := Fixed.ofBytes_lt [h₀, h₁, h₂, h₃]
    rw [hdeclared] at hlt
    exact Nat.lt_of_lt_of_eq hlt (by simp [UInt32.size])
  · -- Four bytes are the code of what they declare, so that the length determines them.
    rw [Failure.block, ← hdeclared]
    exact congrArg (· ++ c.number :: message) (Fixed.toBytes_ofBytes [h₀, h₁, h₂, h₃])

/-- **Blocks are what failures are stored as.** -/
theorem isBlock_iff {b : Bytes} :
    IsBlock b ↔ ∃ f : Failure, f.message.length < UInt32.size ∧ f.block = b :=
  ⟨exists_failure_of_isBlock, fun ⟨_, hf, hb⟩ => hb ▸ isBlock_block hf⟩

/-! ### Reading -/

namespace Stored

variable {b : Bytes} {number : UInt8}

theorem ofEncoded_of_short (h : b.length < blockHeader) :
    ofEncoded b = .error (.truncatedHeader b.length) :=
  match b, h with
  | [], _ | [_], _ | [_, _], _ | [_, _, _], _ | [_, _, _, _], _ => rfl

theorem ofEncoded_of_mismatch (hlong : blockHeader ≤ b.length)
    (h : Fixed.ofBytes (b.take 4) ≠ b.length - blockHeader) :
    ofEncoded b =
      .error (.lengthMismatch (Fixed.ofBytes (b.take 4)) (b.length - blockHeader)) := by
  obtain ⟨h₀, h₁, h₂, h₃, number, message, rfl⟩ := exists_eq_cons hlong
  exact if_pos h

theorem ofEncoded_of_unknown (h : IsMeasured b) (hnumber : b[4]? = some number)
    (hunknown : Code.maxNumber < number) : ofEncoded b = .error (.unknownCode number) := by
  obtain ⟨h₀, h₁, h₂, h₃, _, message, rfl⟩ := exists_eq_cons h.header_le
  cases hnumber
  simp [ofEncoded, isMeasured_cons_iff.1 h, Code.ofNumber, Code.ofNumber?_eq_none hunknown]

theorem ofEncoded_of_zero (h : IsMeasured b) (hnumber : b[4]? = some 0) :
    ofEncoded b = .error .okBlock := by
  obtain ⟨h₀, h₁, h₂, h₃, _, message, rfl⟩ := exists_eq_cons h.header_le
  cases hnumber
  have hok : Code.ofNumber 0 = .ok .ok := rfl
  simp [ofEncoded, isMeasured_cons_iff.1 h, hok]

theorem ofEncoded_of_isBlock (h : IsBlock b) : ofEncoded b = .ok ⟨some b⟩ := by
  obtain ⟨c, hfailure, hnumber⟩ := exists_code_of_isBlock h
  obtain ⟨h₀, h₁, h₂, h₃, _, message, rfl⟩ := exists_eq_cons h.header_le
  cases hnumber
  have hc : Code.ofNumber c.number = .ok c := by
    rw [Code.ofNumber, Code.ofNumber?_number]
  simp [ofEncoded, isMeasured_cons_iff.1 h.toIsMeasured, hc]

/-- What reading a byte string comes to: one that is too short, whose header declares something
else, or that has the number of no code or that of success, is refused for the first of these
reasons; a block is kept. -/
inductive Reads (b : Bytes) : Except BlockError Stored → Prop
  | short (h : b.length < blockHeader) : Reads b (.error (.truncatedHeader b.length))
  | mismatch (hlong : blockHeader ≤ b.length)
      (h : Fixed.ofBytes (b.take 4) ≠ b.length - blockHeader) :
      Reads b (.error (.lengthMismatch (Fixed.ofBytes (b.take 4)) (b.length - blockHeader)))
  | unknown (number : UInt8) (h : IsMeasured b) (hnumber : b[4]? = some number)
      (hunknown : Code.maxNumber < number) : Reads b (.error (.unknownCode number))
  | zero (h : IsMeasured b) (hnumber : b[4]? = some 0) : Reads b (.error .okBlock)
  | block (h : IsBlock b) : Reads b (.ok ⟨some b⟩)

theorem exists_reads (b : Bytes) : ∃ r, Reads b r := by
  rcases Nat.lt_or_ge b.length blockHeader with hshort | hlong
  · exact ⟨_, .short hshort⟩
  by_cases hdeclared : Fixed.ofBytes (b.take 4) = b.length - blockHeader
  · have hmeasured : IsMeasured b := ⟨hlong, hdeclared⟩
    obtain ⟨h₀, h₁, h₂, h₃, number, message, rfl⟩ := exists_eq_cons hlong
    by_cases hunknown : Code.maxNumber < number
    · exact ⟨_, .unknown number hmeasured rfl hunknown⟩
    by_cases hzero : number = 0
    · subst hzero
      exact ⟨_, .zero hmeasured rfl⟩
    · have hpos : 1 ≤ number :=
        UInt8.le_iff_toNat_le.2 (Nat.pos_of_ne_zero fun h => hzero (UInt8.toNat_inj.1 h))
      exact ⟨_, .block ⟨hmeasured, number, rfl, hpos, UInt8.not_lt.1 hunknown⟩⟩
  · exact ⟨_, .mismatch hlong hdeclared⟩

theorem ofEncoded_of_reads {r : Except BlockError Stored} (h : Reads b r) : ofEncoded b = r := by
  cases h with
  | short h => exact ofEncoded_of_short h
  | mismatch hlong h => exact ofEncoded_of_mismatch hlong h
  | unknown number h hnumber hunknown => exact ofEncoded_of_unknown h hnumber hunknown
  | zero h hnumber => exact ofEncoded_of_zero h hnumber
  | block h => exact ofEncoded_of_isBlock h

/-- **What reading comes to is determined by the length, the header and the number, in this
order.** -/
theorem ofEncoded_eq_iff {r : Except BlockError Stored} : ofEncoded b = r ↔ Reads b r := by
  constructor
  · rintro rfl
    obtain ⟨r, hr⟩ := exists_reads b
    rwa [ofEncoded_of_reads hr]
  · exact ofEncoded_of_reads

end Stored

end RecordLog.Status
