import RecordLog.Bytes.Script

/-!
# What scripts on views can show

A script on a view only ever shows a piece of the bytes that it started from: narrowing gives a
piece of a piece, and a view that is kept stays the piece that it was. A request that the view
cannot meet changes nothing. Which requests these are depends on the size of the view alone; an
index is a signed word, and one that is negative counts from the end, down to the least word there
is. Bytes taken away at both ends add up on either side, whatever the order.

## Main definitions

* `RecordLog.View.piece` and `RecordLog.View.IsPieceOf`.
* `RecordLog.View.Removal`, narrowing at one of the ends, with the totals `Removal.firsts` and
  `Removal.lasts`.
* `RecordLog.View.Script.after`.

## Main results

* `RecordLog.View.byteAt_eq_byte`: words are large enough for counting from the end.
* `RecordLog.View.Script.snd_step_of_error` and `RecordLog.View.Script.IsWithin.run`.
* `RecordLog.View.Script.run_removals` and `RecordLog.View.Script.current_after_of_empty`.
* `RecordLog.View.Script.stays_inside`.
-/

namespace RecordLog.View

/-! ### Pieces -/

/-- The view of the bytes from position `l` on, before position `r`. -/
def piece (data : Bytes) (l r : Nat) : View := ⟨(data.take r).drop l⟩

/-- Whether a view shows a contiguous piece of a byte string. -/
def IsPieceOf (v : View) (data : Bytes) : Prop :=
  ∃ l r, l ≤ r ∧ r ≤ data.length ∧ v = piece data l r

variable {data : Bytes} {v w : View} {n : Nat}

theorem size_piece (data : Bytes) (l : Nat) {r : Nat} (h : r ≤ data.length) :
    (piece data l r).size = r - l := by
  rw [size, piece, List.length_drop, List.length_take, Nat.min_eq_left h]

theorem piece_zero_length (data : Bytes) : piece data 0 data.length = ⟨data⟩ := by
  rw [piece, List.take_length, List.drop_zero]

/-- A piece of a piece is a piece. -/
theorem piece_piece {l r : Nat} (a : Nat) {b : Nat} (h : l + b ≤ r) :
    piece (piece data l r).bytes a b = piece data (l + a) (l + b) := by
  rw [piece, piece, piece, List.take_drop, List.drop_drop, List.take_take, Nat.min_eq_left h]

theorem isPieceOf_self (v : View) : v.IsPieceOf v.bytes :=
  ⟨0, v.size, Nat.zero_le _, Nat.le_refl _, (piece_zero_length v.bytes).symm⟩

theorem isPieceOf_empty (data : Bytes) : empty.IsPieceOf data :=
  ⟨0, 0, Nat.le_refl 0, Nat.zero_le _, rfl⟩

theorem eq_empty_of_isPieceOf_nil (h : v.IsPieceOf []) : v = empty := by
  obtain ⟨l, r, -, -, rfl⟩ := h
  rw [piece, List.take_nil, List.drop_nil, empty]

theorem IsPieceOf.trans (hw : w.IsPieceOf v.bytes) (hv : v.IsPieceOf data) : w.IsPieceOf data := by
  obtain ⟨l, r, hlr, hr, rfl⟩ := hv
  obtain ⟨a, b, hab, hb, rfl⟩ := hw
  have hsize : b ≤ r - l := (size_piece data l hr) ▸ hb
  exact ⟨l + a, l + b, by omega, by omega, piece_piece a (by omega)⟩

theorem dropFirst_eq_ok_iff_piece :
    v.dropFirst n = .ok w ↔ n ≤ v.size ∧ w = piece v.bytes n v.size := by
  rw [dropFirst_eq_ok_iff, piece, size, List.take_length]

theorem dropLast_eq_ok_iff_piece :
    v.dropLast n = .ok w ↔ n ≤ v.size ∧ w = piece v.bytes 0 (v.size - n) := by
  rw [dropLast_eq_ok_iff, piece, List.drop_zero]

theorem isPieceOf_of_dropFirst (h : v.dropFirst n = .ok w) : w.IsPieceOf v.bytes := by
  obtain ⟨hn, rfl⟩ := dropFirst_eq_ok_iff_piece.1 h
  exact ⟨n, v.size, hn, Nat.le_refl _, rfl⟩

theorem isPieceOf_of_dropLast (h : v.dropLast n = .ok w) : w.IsPieceOf v.bytes := by
  obtain ⟨-, rfl⟩ := dropLast_eq_ok_iff_piece.1 h
  exact ⟨0, v.size - n, Nat.zero_le _, Nat.sub_le _ _, rfl⟩

/-! ### Indices -/

/-- The magnitude of a signed word is its absolute value, also of the least one. -/
theorem toNat_abs (n : Int64) : n.abs.toUInt64.toNat = n.toInt.natAbs := by
  have habs : n.abs.toUInt64.toNat = n.toBitVec.abs.toNat := rfl
  have hint : n.toInt = n.toBitVec.toInt := rfl
  have hlt := n.toBitVec.isLt
  rw [habs, hint, BitVec.toNat_abs, BitVec.toInt_eq_msb_cond]
  split <;> omega

theorem toNat_of_nonneg {n : Int64} (h : 0 ≤ n.toInt) : n.toUInt64.toNat = n.toInt.toNat := by
  have hnat : n.toUInt64.toNat = n.toBitVec.toNat := rfl
  have hint : n.toInt = n.toBitVec.toInt := rfl
  have hcond := BitVec.toInt_eq_msb_cond n.toBitVec
  have hlt := n.toBitVec.isLt
  rw [hint] at h ⊢
  rw [hnat]
  split at hcond <;> omega

/-- An index word asks for the byte that its number asks for. -/
theorem byteAt_eq_byte (v : View) (n : Int64) : v.byteAt n = v.byte n.toInt := by
  have hneg : n < 0 ↔ n.toInt < 0 := Int64.lt_iff_toInt_lt
  by_cases h : n.toInt < 0
  · rw [byteAt, byte, position?, if_pos (hneg.2 h), if_pos h, toNat_abs]
    by_cases hback : n.toInt.natAbs ≤ v.size
    · rw [if_pos hback, if_neg (by omega), Option.bind_some,
        show v.size - n.toInt.natAbs = (v.size + n.toInt).toNat by omega]
    · rw [if_neg hback, if_pos (by omega)]
      rfl
  · rw [byteAt, byte, position?, if_neg (mt hneg.1 h), if_neg h, if_neg h,
      toNat_of_nonneg (by omega), Option.bind_some]

/-- A byte is found just at the indices from minus the size on, below the size. -/
theorem byte_cases (v : View) (n : Int) :
    (¬ (-(v.size : Int) ≤ n ∧ n < v.size) ∧ v.byte n = .error (.index n v.size)) ∨
      (-(v.size : Int) ≤ n ∧ n < v.size) ∧ ∃ b, v.byte n = .ok b ∧
        v.bytes[(if 0 ≤ n then n else v.size + n).toNat]? = some b := by
  have hposition : (if n < 0 then v.size + n else n) = if 0 ≤ n then n else v.size + n := by
    split <;> split <;> omega
  rw [byte, hposition]
  generalize hi : (if 0 ≤ n then n else v.size + n) = i
  by_cases hn : -(v.size : Int) ≤ n ∧ n < v.size
  · have hlt : i.toNat < v.bytes.length := by
      rw [size] at hn hi
      split at hi <;> omega
    have hpos : ¬ i < 0 := by split at hi <;> omega
    refine Or.inr ⟨hn, v.bytes.get ⟨i.toNat, hlt⟩, ?_, List.getElem?_eq_getElem hlt⟩
    rw [if_neg hpos, List.getElem?_eq_getElem hlt]
    rfl
  · refine Or.inl ⟨hn, ?_⟩
    by_cases hneg : i < 0
    · rw [if_pos hneg]
    · have hge : v.bytes.length ≤ i.toNat := by
        rw [size] at hn hi
        split at hi <;> omega
      rw [if_neg hneg, List.getElem?_eq_none hge]

/-! ### Steps -/

namespace Script

variable {s : Script}

/-- The script after some steps. -/
def after (s : Script) (steps : List Step) : Script := steps.foldl (fun s a => (s.step a).2) s

theorem run_cons (s : Script) (a : Step) (steps : List Step) :
    s.run (a :: steps) = ((s.step a).1, (s.step a).2.current) :: (s.step a).2.run steps := rfl

/-- Whether all requests among some steps can be met. -/
def Meets (s : Script) (steps : List Step) : Prop := ∀ x ∈ s.run steps, ∃ y, x.1 = .ok y

theorem meets_cons_iff {a : Step} {steps : List Step} :
    s.Meets (a :: steps) ↔ (∃ y, (s.step a).1 = .ok y) ∧ (s.step a).2.Meets steps := by
  rw [Meets, run_cons, List.forall_mem_cons, Meets]

theorem snd_narrow_of_error {r : Except Fault View} {e : Fault}
    (h : (step.narrow s r).1 = .error e) : (step.narrow s r).2 = s := by
  cases r with
  | ok v => cases h
  | error e => rfl

/-- **A request that cannot be met changes nothing.** -/
theorem snd_step_of_error {a : Step} {e : Fault} (h : (s.step a).1 = .error e) :
    (s.step a).2 = s := by
  cases a with
  | dropFirst | dropLast => exact snd_narrow_of_error h
  | clear | save | restore => cases h
  | byte | tail | bytes | text | debug | startsWith | endsWith | compare => rfl

/-- Narrowing and asking for the bytes from a position on fail beyond the size of the view. -/
theorem exists_error_step_iff {n : Nat} {a : Step}
    (ha : a = .dropFirst n ∨ a = .dropLast n ∨ a = .tail n) :
    (∃ e, (s.step a).1 = .error e) ↔ s.current.size < n := by
  rcases Nat.lt_or_ge s.current.size n with hn | hn
  · have hnot : ¬ n ≤ s.current.size := Nat.not_le.2 hn
    rcases ha with rfl | rfl | rfl <;>
      simp [step, step.narrow, View.dropFirst, View.dropLast, View.tail, Except.map, hnot, hn]
  · rcases ha with rfl | rfl | rfl <;>
      simp [step, step.narrow, View.dropFirst, View.dropLast, View.tail, Except.map, hn]

/-! ### What can be shown -/

/-- Both views of a script show pieces of a byte string. -/
structure IsWithin (s : Script) (data : Bytes) : Prop where
  current : s.current.IsPieceOf data
  kept : s.kept.IsPieceOf data

theorem isWithin_start (data : Bytes) : (start ⟨data⟩).IsWithin data :=
  ⟨isPieceOf_self ⟨data⟩, isPieceOf_self ⟨data⟩⟩

theorem IsWithin.narrow (hs : s.IsWithin data) {r : Except Fault View}
    (hr : ∀ w, r = .ok w → w.IsPieceOf s.current.bytes) :
    (step.narrow s r).2.IsWithin data := by
  cases r with
  | error e => exact hs
  | ok w => exact ⟨(hr w rfl).trans hs.current, hs.kept⟩

theorem IsWithin.step (hs : s.IsWithin data) (a : Step) : (s.step a).2.IsWithin data := by
  cases a with
  | dropFirst n => exact hs.narrow fun w h => isPieceOf_of_dropFirst h
  | dropLast n => exact hs.narrow fun w h => isPieceOf_of_dropLast h
  | clear => exact ⟨isPieceOf_empty data, hs.kept⟩
  | save => exact ⟨hs.current, hs.current⟩
  | restore => exact ⟨hs.kept, hs.kept⟩
  | byte | tail | bytes | text | debug | startsWith | endsWith | compare => exact hs

theorem IsWithin.run (hs : s.IsWithin data) (steps : List Step) :
    ∀ x ∈ s.run steps, x.2.IsPieceOf data := by
  induction steps generalizing s with
  | nil => exact fun x hx => absurd hx List.not_mem_nil
  | cons a steps ih =>
      rw [run_cons, List.forall_mem_cons]
      exact ⟨(hs.step a).current, ih (hs.step a)⟩

/-! ### Coming back to what was kept -/

theorem kept_step {a : Step} (ha : a ≠ .save) : (s.step a).2.kept = s.kept := by
  cases a with
  | dropFirst n =>
      change (step.narrow s (s.current.dropFirst n)).2.kept = s.kept
      cases s.current.dropFirst n <;> rfl
  | dropLast n =>
      change (step.narrow s (s.current.dropLast n)).2.kept = s.kept
      cases s.current.dropLast n <;> rfl
  | save => exact absurd rfl ha
  | clear | restore | byte | tail | bytes | text | debug | startsWith | endsWith | compare => rfl

theorem kept_after {steps : List Step} (h : Step.save ∉ steps) : (s.after steps).kept = s.kept := by
  induction steps generalizing s with
  | nil => rfl
  | cons a steps ih =>
      rw [List.mem_cons, not_or] at h
      exact (ih h.2).trans (kept_step (Ne.symm h.1))

/-! ### Staying empty -/

theorem current_narrow_of_empty (hs : s.current = empty) {r : Except Fault View}
    (hr : ∀ w, r = .ok w → w.IsPieceOf s.current.bytes) :
    (step.narrow s r).2.current = empty := by
  cases r with
  | error e => exact hs
  | ok w =>
      have hw := hr w rfl
      rw [hs] at hw
      exact eq_empty_of_isPieceOf_nil hw

theorem current_step_of_empty {a : Step} (hs : s.current = empty) (ha : a ≠ .restore) :
    (s.step a).2.current = empty := by
  cases a with
  | dropFirst n => exact current_narrow_of_empty hs fun w h => isPieceOf_of_dropFirst h
  | dropLast n => exact current_narrow_of_empty hs fun w h => isPieceOf_of_dropLast h
  | clear => rfl
  | restore => exact absurd rfl ha
  | save | byte | tail | bytes | text | debug | startsWith | endsWith | compare => exact hs

/-- **An empty view stays empty** as long as nothing is restored. -/
theorem current_after_of_empty {steps : List Step} (hs : s.current = empty)
    (h : Step.restore ∉ steps) : (s.after steps).current = empty := by
  induction steps generalizing s with
  | nil => exact hs
  | cons a steps ih =>
      rw [List.mem_cons, not_or] at h
      exact ih (current_step_of_empty hs (Ne.symm h.1)) h.2

end Script

/-! ### Removals in any order -/

/-- Narrowing at one of the ends. -/
inductive Removal
  | first (n : Nat)
  | last (n : Nat)
  deriving DecidableEq, Repr

namespace Removal

/-- The step that takes the bytes away. -/
def step : Removal → Script.Step
  | first n => .dropFirst n
  | last n => .dropLast n

/-- How many bytes are taken away in front. -/
def front : Removal → Nat
  | first n => n
  | last _ => 0

/-- How many bytes are taken away at the end. -/
def back : Removal → Nat
  | first _ => 0
  | last n => n

/-- How many bytes several removals take away in front. -/
def firsts : List Removal → Nat
  | [] => 0
  | r :: rs => r.front + firsts rs

/-- How many bytes several removals take away at the end. -/
def lasts : List Removal → Nat
  | [] => 0
  | r :: rs => r.back + lasts rs

end Removal

namespace Script

open Removal (firsts lasts)

variable {s : Script}

theorem step_removal {r : Removal} (h : r.front + r.back ≤ s.current.size) :
    s.step r.step = (.ok .nothing,
      { s with current := piece s.current.bytes r.front (s.current.size - r.back) }) := by
  cases r with
  | first n =>
      have hn : n ≤ s.current.size := h
      rw [Removal.step, step, dropFirst_eq_ok_iff_piece.2 ⟨hn, rfl⟩]
      rfl
  | last n =>
      have hn : n ≤ s.current.size := (Nat.zero_add n) ▸ h
      rw [Removal.step, step, dropLast_eq_ok_iff_piece.2 ⟨hn, rfl⟩]
      rfl

theorem exists_error_step_removal {r : Removal} (h : s.current.size < r.front + r.back) :
    ∃ e, (s.step r.step).1 = .error e := by
  cases r with
  | first n => exact (exists_error_step_iff (.inl rfl)).2 h
  | last n => exact (exists_error_step_iff (.inr (.inl rfl))).2 (by rwa [← Nat.zero_add n])

/-- **Removals add up.** They can all be made just if they take no more than there is, and then
leave what is between the first bytes and the last ones that they take. -/
theorem run_removals (s : Script) (rs : List Removal) :
    (s.Meets (rs.map Removal.step) ↔ firsts rs + lasts rs ≤ s.current.size) ∧
      (s.Meets (rs.map Removal.step) → (s.after (rs.map Removal.step)).current =
        piece s.current.bytes (firsts rs) (s.current.size - lasts rs)) := by
  induction rs generalizing s with
  | nil =>
      have hmeets : s.Meets [] := fun x hx => absurd hx List.not_mem_nil
      exact ⟨iff_of_true hmeets (Nat.zero_le _),
        fun _ => (piece_zero_length s.current.bytes).symm⟩
  | cons r rs ih =>
      rw [List.map_cons, meets_cons_iff, firsts, lasts]
      rcases Nat.lt_or_ge s.current.size (r.front + r.back) with hshort | hroom
      · obtain ⟨e, he⟩ := exists_error_step_removal hshort
        have hstops : ¬ ∃ y, (s.step r.step).1 = .ok y := by
          rintro ⟨y, hy⟩
          cases he.symm.trans hy
        exact ⟨iff_of_false (fun h => hstops h.1) (by omega), fun h => absurd h.1 hstops⟩
      · have hstep := step_removal hroom
        have hsize := size_piece s.current.bytes r.front (Nat.sub_le s.current.size r.back)
        have hcons : (s.after (r.step :: rs.map Removal.step)).current =
            ((s.step r.step).2.after (rs.map Removal.step)).current := rfl
        obtain ⟨hmeets, hafter⟩ := ih (s.step r.step).2
        rw [hstep] at hmeets hafter
        rw [hcons, hstep, hmeets, hsize]
        refine ⟨⟨fun h => by omega, fun h => ⟨⟨.nothing, rfl⟩, by omega⟩⟩, fun h => ?_⟩
        have hrest := h.2
        rw [hafter (hmeets.2 (hsize ▸ hrest)), hsize, piece_piece _ (by omega)]
        congr 1
        omega

/-- **A script shows nothing but pieces of what it started from.** After each step the view is a
contiguous piece of the bytes. A request that cannot be met changes nothing; narrowing and asking
for the rest cannot be met just beyond the size of the view, and a single byte just outside of the
indices from minus the size on, below the size, where it is the byte that is counted from the start
or from the end. Removals that can be made add up at both ends, in any order. What has been kept
comes back as it was, whatever has been done since. Once cleared, the view is empty until something
is restored. -/
theorem stays_inside (data : Bytes) (steps : List Step) (s : Script) :
    (∀ x ∈ (start ⟨data⟩).run steps, x.2.IsPieceOf data) ∧
      (∀ a e, (s.step a).1 = .error e → (s.step a).2 = s) ∧
      (∀ n, ∀ a ∈ [Step.dropFirst n, .dropLast n, .tail n],
        (∃ e, (s.step a).1 = .error e) ↔ s.current.size < n) ∧
      (∀ n : Int64, (∃ e, (s.step (.byte n)).1 = .error e) ↔
        ¬ (-(s.current.size : Int) ≤ n.toInt ∧ n.toInt < s.current.size)) ∧
      (∀ n : Int64, -(s.current.size : Int) ≤ n.toInt ∧ n.toInt < s.current.size →
        ∃ b, (s.step (.byte n)).1 = .ok (.byte b) ∧
          s.current.bytes[(if 0 ≤ n.toInt then n.toInt else s.current.size + n.toInt).toNat]? =
            some b) ∧
      (∀ rs, (s.Meets (rs.map Removal.step) ↔ firsts rs + lasts rs ≤ s.current.size) ∧
        (s.Meets (rs.map Removal.step) → (s.after (rs.map Removal.step)).current =
          piece s.current.bytes (firsts rs) (s.current.size - lasts rs))) ∧
      (.save ∉ steps → (((s.step .save).2.after steps).step .restore).2.current = s.current) ∧
      (.restore ∉ steps → ((s.step .clear).2.after steps).current = empty) := by
  refine ⟨(isWithin_start data).run steps, fun a e => snd_step_of_error, fun n a ha => ?_,
    fun n => ?_, fun n hn => ?_, run_removals s, fun hsave => ?_, current_after_of_empty rfl⟩
  · simp only [List.mem_cons, List.not_mem_nil, or_false] at ha
    exact exists_error_step_iff ha
  · rcases byte_cases s.current n.toInt with ⟨hout, hbyte⟩ | ⟨hin, b, hbyte, -⟩
    · refine iff_of_true ⟨.index n.toInt s.current.size, ?_⟩ hout
      rw [step, byteAt_eq_byte, hbyte]
      rfl
    · refine iff_of_false ?_ (not_not_intro hin)
      rintro ⟨e, he⟩
      rw [step, byteAt_eq_byte, hbyte] at he
      cases he
  · rcases byte_cases s.current n.toInt with ⟨hout, -⟩ | ⟨-, b, hbyte, hget⟩
    · exact absurd hn hout
    · refine ⟨b, ?_, hget⟩
      rw [step, byteAt_eq_byte, hbyte]
      rfl
  · exact kept_after hsave

/-- The least index, and the least one that a view of three bytes has. -/
theorem stays_inside_least_index :
    ∃ s : Script, s = start ⟨[0x61, 0x62, 0x63]⟩ ∧
      (s.step (.byte Int64.minValue)).1 = .error (.index (-0x8000000000000000) 3) ∧
      (s.step (.byte Int64.minValue)).2 = s ∧
      (-(s.current.size : Int) ≤ (-3 : Int64).toInt ∧ (-3 : Int64).toInt < s.current.size) ∧
      (∃ b, (s.step (.byte (-3))).1 = .ok (.byte b) ∧ s.current.bytes[0]? = some b) ∧
      s.Meets ([Removal.last 1, .first 2].map Removal.step) ∧
      (s.after ([Removal.last 1, .first 2].map Removal.step)).current =
        piece s.current.bytes 2 2 ∧
      Step.save ∉ [.dropFirst 2, .clear] ∧
      (((s.step .save).2.after [.dropFirst 2, .clear]).step .restore).2.current = s.current ∧
      Step.restore ∉ [.dropFirst 2, .clear] ∧
      ((s.step .clear).2.after [.dropFirst 2, .clear]).current = empty := by
  have herror : ((start ⟨[0x61, 0x62, 0x63]⟩).step (.byte Int64.minValue)).1 =
      .error (.index (-0x8000000000000000) 3) := rfl
  obtain ⟨-, hkeeps, -, -, hbyte, hremovals, hrestore, hclear⟩ :=
    stays_inside [0x61, 0x62, 0x63] [.dropFirst 2, .clear] (start ⟨[0x61, 0x62, 0x63]⟩)
  obtain ⟨hmeets, hafter⟩ := hremovals [.last 1, .first 2]
  have hmet := hmeets.2 (by decide)
  exact ⟨_, rfl, herror, hkeeps _ _ herror, by decide, hbyte (-3) (by decide), hmet, hafter hmet,
    by decide, hrestore (by decide), by decide, hclear (by decide)⟩

end Script

end RecordLog.View
