import RecordLog.Proofs.Status.Soundness

/-!
# Blocks and statuses correspond

Each block is read as one status, which is kept as that block again, and each failure that is
reached is read back from what it is kept as. Any other byte string is refused, for the first
reason that applies. The length in a block adds nothing to its message; so two statuses that are
reached are the same if their codes and messages are, and just then their blocks are.

## Main results

* `RecordLog.Status.Stored.IsSound.eq_iff`.
* `RecordLog.Status.Stored.ofEncoded_exact`.
-/

namespace RecordLog.Status.Stored

variable {b : Bytes} {s t : Stored}

/-! ### Reading back -/

theorem IsSound.ofEncoded_eq (h : s.IsSound) (hb : s.encoded = some b) : ofEncoded b = .ok s := by
  rw [ofEncoded_of_isBlock (h b hb), ← hb]
  rfl

theorem ofEncoded_eq_ok_iff : ofEncoded b = .ok s ↔ IsBlock b ∧ s.encoded = some b := by
  constructor
  · intro h
    cases ofEncoded_eq_iff.1 h with
    | block hblock => exact ⟨hblock, rfl⟩
  · rintro ⟨hblock, hb⟩
    rw [ofEncoded_of_isBlock hblock, ← hb]
    rfl

/-- **A status is known by its code and message.** -/
theorem IsSound.eq_iff (hs : s.IsSound) (ht : t.IsSound) :
    s = t ↔ s.code = t.code ∧ s.message = t.message := by
  constructor
  · rintro rfl
    exact ⟨rfl, rfl⟩
  · obtain ⟨x, -, rfl⟩ := isSound_iff.1 hs
    obtain ⟨y, -, rfl⟩ := isSound_iff.1 ht
    rintro ⟨hcode, hmessage⟩
    rw [code_stored, code_stored] at hcode
    rw [message_stored, message_stored] at hmessage
    rw [eq_of_code_of_message hcode hmessage]

theorem eq_iff_encoded_eq : s = t ↔ s.encoded = t.encoded := by
  cases s
  cases t
  simp [encoded]

/-! ### Exact acceptance -/

/-- **Reading accepts blocks and nothing else, and undoes what keeps a status.** A byte string is
refused for the first of these reasons that applies: that it is shorter than a header, that the
header declares another length, that its number is greater than that of any code, that its number
is that of success. What is accepted is kept as it is, with the code of its number and the bytes
behind the header as its message. -/
theorem ofEncoded_exact (b : Bytes) (hs : s.IsReachable) (ht : t.IsReachable) :
    ((∀ n, ofEncoded b = .error (.truncatedHeader n) ↔ b.length < 5 ∧ n = b.length) ∧
      (∀ declared actual, ofEncoded b = .error (.lengthMismatch declared actual) ↔
        5 ≤ b.length ∧ declared = Fixed.ofBytes (b.take 4) ∧ actual = b.length - 5 ∧
          declared ≠ actual) ∧
      (∀ number, ofEncoded b = .error (.unknownCode number) ↔
        IsMeasured b ∧ b[4]? = some number ∧ 8 < number) ∧
      (ofEncoded b = .error .okBlock ↔ IsMeasured b ∧ b[4]? = some 0) ∧
      ∀ r, ofEncoded b = .ok r ↔
        IsMeasured b ∧ (∃ number, b[4]? = some number ∧ 1 ≤ number ∧ number ≤ 8) ∧
          r.encoded = some b ∧ b[4]? = some r.code.number ∧ r.message = b.drop 5) ∧
      (∀ block, s.encoded = some block → ofEncoded block = .ok s) ∧
      (s = t ↔ s.code = t.code ∧ s.message = t.message) ∧ (s = t ↔ s.encoded = t.encoded) := by
  refine ⟨⟨?_, ?_, ?_, ?_, ?_⟩, fun _ hblock => hs.isSound.ofEncoded_eq hblock,
    hs.isSound.eq_iff ht.isSound, eq_iff_encoded_eq⟩
  · intro n
    rw [ofEncoded_eq_iff]
    constructor
    · rintro ⟨⟩
      exact ⟨‹_›, rfl⟩
    · rintro ⟨hshort, rfl⟩
      exact .short hshort
  · intro declared actual
    rw [ofEncoded_eq_iff]
    constructor
    · rintro ⟨⟩
      exact ⟨‹_›, rfl, rfl, ‹_›⟩
    · rintro ⟨hlong, rfl, rfl, hne⟩
      exact .mismatch hlong hne
  · intro number
    rw [ofEncoded_eq_iff]
    constructor
    · rintro ⟨⟩
      exact ⟨‹_›, ‹_›, ‹_›⟩
    · rintro ⟨hmeasured, hnumber, hunknown⟩
      exact .unknown number hmeasured hnumber hunknown
  · rw [ofEncoded_eq_iff]
    constructor
    · rintro ⟨⟩
      exact ⟨‹_›, ‹_›⟩
    · rintro ⟨hmeasured, hnumber⟩
      exact .zero hmeasured hnumber
  · intro r
    rw [ofEncoded_eq_ok_iff]
    constructor
    · rintro ⟨hblock, hr⟩
      have hsound := isSound_of_ofEncoded (ofEncoded_eq_ok_iff.2 ⟨hblock, hr⟩)
      refine ⟨hblock.toIsMeasured, hblock.exists_number, hr, hsound.getElem?_block hr, ?_⟩
      cases r
      cases hr
      rfl
    · rintro ⟨hmeasured, hnumber, hr, -⟩
      exact ⟨⟨hmeasured, hnumber⟩, hr⟩

/-- A failure that is made from two messages and then read from what it is kept as, and a byte
string that both declares another length and has the number of no code. -/
theorem ofEncoded_exact_reparsed :
    ∃ (b : Bytes) (s t : Stored), b = [2, 0, 0, 0, 9] ∧
      s = ⟨some [4, 0, 0, 0, 6, 0x61, 0x3a, 0x20, 0x62]⟩ ∧ t = .ok ∧ s.IsReachable ∧ t.IsReachable ∧
      ((∀ n, ofEncoded b = .error (.truncatedHeader n) ↔ b.length < 5 ∧ n = b.length) ∧
        (∀ declared actual, ofEncoded b = .error (.lengthMismatch declared actual) ↔
          5 ≤ b.length ∧ declared = Fixed.ofBytes (b.take 4) ∧ actual = b.length - 5 ∧
            declared ≠ actual) ∧
        (∀ number, ofEncoded b = .error (.unknownCode number) ↔
          IsMeasured b ∧ b[4]? = some number ∧ 8 < number) ∧
        (ofEncoded b = .error .okBlock ↔ IsMeasured b ∧ b[4]? = some 0) ∧
        ∀ r, ofEncoded b = .ok r ↔
          IsMeasured b ∧ (∃ number, b[4]? = some number ∧ 1 ≤ number ∧ number ≤ 8) ∧
            r.encoded = some b ∧ b[4]? = some r.code.number ∧ r.message = b.drop 5) ∧
        (∀ block, s.encoded = some block → ofEncoded block = .ok s) ∧
        (s = t ↔ s.code = t.code ∧ s.message = t.message) ∧ (s = t ↔ s.encoded = t.encoded) := by
  have hs : IsReachable ⟨some [4, 0, 0, 0, 6, 0x61, 0x3a, 0x20, 0x62]⟩ :=
    ⟨2, [(0, .new .ioError [0x61] [0x62]), (1, .reparse 0)],
      Vector.mem_iff_getElem.2 ⟨1, by decide, rfl⟩⟩
  have ht : IsReachable .ok := ⟨1, [], Vector.mem_iff_getElem.2 ⟨0, by decide, rfl⟩⟩
  exact ⟨_, _, _, rfl, rfl, rfl, hs, ht, ofEncoded_exact [2, 0, 0, 0, 9] hs ht⟩

end RecordLog.Status.Stored
