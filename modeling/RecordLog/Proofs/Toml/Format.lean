import RecordLog.Proofs.Options.Format
import RecordLog.Toml.Format

/-!
# The format of keys and values

Documents of keys and values are a format that does all that is asked of one. Plain lines are read
as they stand and put in the order of their keys; literals are read as what they stand for, or
complained of in the words that are asked for.

## Main results

* `RecordLog.Toml.perm_inOrder` and `RecordLog.Toml.pairwise_inOrder`.
* `RecordLog.Toml.readsLines`, `RecordLog.Toml.handsOverInOrder`, `RecordLog.Toml.readsValues`,
  `RecordLog.Toml.explains` and `RecordLog.Toml.writesLines`.
-/

namespace RecordLog.Toml

open Options (Setting)
open Options.Setting.Kind (IsWord Complains)

/-! ### Entries in order -/

section InOrder

variable {α β : Type} {key : α → Text}

theorem perm_place (key : α → Text) (x : α) (xs : List α) : (place key x xs).Perm (x :: xs) := by
  induction xs with
  | nil => exact .refl _
  | cons y ys ih =>
      rw [place]
      split_ifs
      · exact .refl _
      · exact (ih.cons y).trans (.swap x y ys)

theorem perm_inOrder (key : α → Text) (xs : List α) : (inOrder key xs).Perm xs := by
  induction xs with
  | nil => exact .refl _
  | cons x xs ih => exact (perm_place key x _).trans (ih.cons x)

theorem pairwise_place {x : α} {xs : List α} (h : xs.Pairwise fun a b => ¬ key b < key a) :
    (place key x xs).Pairwise fun a b => ¬ key b < key a := by
  induction xs with
  | nil => exact List.pairwise_singleton _ x
  | cons y ys ih =>
      have hcons := List.pairwise_cons.1 h
      rw [place]
      split_ifs with hlt
      · refine List.pairwise_cons.2 ⟨List.forall_mem_cons.2 ⟨List.lt_asymm hlt, ?_⟩, h⟩
        intro z hz hzx
        exact hcons.1 z hz (List.lt_trans hzx hlt)
      · refine List.pairwise_cons.2 ⟨fun z hz => ?_, ih hcons.2⟩
        rcases List.mem_cons.1 ((perm_place key x ys).mem_iff.1 hz) with rfl | hmem
        · exact hlt
        · exact hcons.1 z hmem

/-- **Things are put in the order of their keys.** -/
theorem pairwise_inOrder (key : α → Text) (xs : List α) :
    (inOrder key xs).Pairwise fun a b => ¬ key b < key a := by
  induction xs with
  | nil => exact .nil
  | cons x xs ih => exact pairwise_place ih

theorem map_place (g : α → β) {key' : β → Text} (hg : ∀ x, key' (g x) = key x) (x : α)
    (xs : List α) : (place key x xs).map g = place key' (g x) (xs.map g) := by
  induction xs with
  | nil => rfl
  | cons y ys ih =>
      rw [place, List.map_cons, place, hg, hg]
      split_ifs
      · rfl
      · rw [List.map_cons, ih]

theorem map_inOrder (g : α → β) {key' : β → Text} (hg : ∀ x, key' (g x) = key x) (xs : List α) :
    (inOrder key xs).map g = inOrder key' (xs.map g) := by
  induction xs with
  | nil => rfl
  | cons x xs ih => rw [inOrder, map_place g hg, ih, List.map_cons, inOrder]

end InOrder

/-! ### Documents -/

theorem entries_of_document?_eq {t : Text} {es : Entries} (h : document? t = some es) :
    entries t = .ok (inOrder Prod.fst es) := by
  rw [entries, h]

/-- **Plain lines are handed over.** -/
theorem readsLines : format.ReadsLines Literal.value fun l => l.literal.IsReadable :=
  fun ended ls hkeys hread => by
    have hfst : ∀ l : Line, l.entry.1 = l.key := fun _ => rfl
    have hmap := map_inOrder Line.entry hfst ls
    refine ⟨inOrder Line.key ls, perm_inOrder Line.key ls, ?_⟩
    exact (entries_of_document?_eq (document?_document ended hkeys hread)).trans
      (congrArg Except.ok hmap.symm)

/-- **Entries are handed over in the order of their keys.** -/
theorem handsOverInOrder : format.HandsOverInOrder := by
  intro t es h
  have hentries : entries t = .ok es := h
  unfold entries at hentries
  split at hentries
  · cases hentries
  · obtain rfl := Except.ok.inj hentries
    exact pairwise_inOrder Prod.fst _

/-- **Single values are written as plain lines.** -/
theorem writesLines : format.WritesLines := fun _ _ _ _ => rfl

/-! ### Values -/

theorem isWord64_iff {n : Int} : isWord64 n = true ↔ IsWord n := by
  rw [isWord64, IsWord, Bool.and_eq_true, decide_eq_true_iff, decide_eq_true_iff]
  have hsize : (UInt64.size : Int) = 0x10000000000000000 := rfl
  omega

theorem natural_of_range {bound : Nat} {k : Setting.Kind} {n : Int} (h : 0 ≤ n ∧ n < bound) :
    natural bound k (.integer n) = .ok n.toNat := if_pos h

/-- Numbers and truth values are read as what they are. -/
theorem readsValues : format.ReadsValues Literal.value where
  count {negative n} hlow hn := by
    have hnumber : withSign negative n = n := by cases negative <;> grind [withSign]
    have hread : format.read .count (Literal.value (.integer negative n)) =
        (natural UInt64.size .count (.integer (withSign negative n))).map .ofNat := rfl
    rw [hread, hnumber, natural_of_range ⟨Int.natCast_nonneg n, Int.ofNat_lt.2 hn⟩]
    rfl
  mode {negative n} hlow hn := by
    have hnumber : withSign negative n = n := by cases negative <;> grind [withSign]
    have hread : format.read .mode (Literal.value (.integer negative n)) =
        (natural UInt32.size .mode (.integer (withSign negative n))).map .ofNat := rfl
    rw [hread, hnumber, natural_of_range ⟨Int.natCast_nonneg n, Int.ofNat_lt.2 hn⟩]
    rfl
  flag b := rfl

/-! ### What is said of literals -/

section Words

variable {k : Setting.Kind} {n : Int}

theorem widthText_of_isWord (hn : IsWord n) : widthText n = [] := if_pos (isWord64_iff.2 hn)

theorem widthText_of_not_isWord (hn : ¬ IsWord n) (hlt : n < 0x80000000000000000000000000000000) :
    widthText n = " as i128".toList := by
  rw [widthText, if_neg (mt isWord64_iff.1 hn), if_pos hlt]

theorem wrongType_eq (seen : Outline) (k : Setting.Kind) : wrongType seen k =
    "invalid type: ".toList ++ seen.text ++ ", expected ".toList ++ k.name.toList := rfl

theorem wrongType_integer (n : Int) (k : Setting.Kind) : wrongType (.integer n) k =
    "invalid type: integer `".toList ++ integerText n ++ '`' :: (widthText n ++
      ", expected ".toList ++ k.name.toList) := by
  have htext : (Outline.integer n).text =
      "integer `".toList ++ integerText n ++ ['`'] ++ widthText n := rfl
  have hwords : "invalid type: integer `".toList =
      "invalid type: ".toList ++ "integer `".toList := rfl
  rw [wrongType_eq, htext, hwords]
  simp only [List.append_assoc, List.cons_append, List.nil_append]

theorem wrongType_word (hn : IsWord n) (k : Setting.Kind) : wrongType (.integer n) k =
    "invalid type: integer `".toList ++ integerText n ++ "`, expected ".toList ++
      k.name.toList := by
  have hwords : "`, expected ".toList = '`' :: ", expected ".toList := rfl
  rw [wrongType_integer, widthText_of_isWord hn, hwords]
  simp only [List.append_assoc, List.nil_append, List.cons_append]

theorem wrongType_wide (hn : ¬ IsWord n) (hlt : n < 0x80000000000000000000000000000000)
    (k : Setting.Kind) : wrongType (.integer n) k =
      "invalid type: integer `".toList ++ integerText n ++ "` as i128, expected ".toList ++
        k.name.toList := by
  have hwords : "` as i128, expected ".toList =
      '`' :: (" as i128".toList ++ ", expected ".toList) := rfl
  rw [wrongType_integer, widthText_of_not_isWord hn hlt, hwords]
  simp only [List.append_assoc, List.cons_append]

theorem wrongType_boolean (b : Bool) (k : Setting.Kind) : wrongType (.boolean b) k =
    "invalid type: boolean `".toList ++ booleanText b ++ "`, expected ".toList ++
      k.name.toList := by
  have htext : (Outline.boolean b).text = "boolean `".toList ++ booleanText b ++ ['`'] := rfl
  have hwords : "invalid type: boolean `".toList =
      "invalid type: ".toList ++ "boolean `".toList := rfl
  have hwords' : "`, expected ".toList = '`' :: ", expected ".toList := rfl
  rw [wrongType_eq, htext, hwords, hwords']
  simp only [List.append_assoc, List.cons_append, List.nil_append]

/-- Where a kind of numbers is expected, one that is not in its range is out of range if it is of 64
bits, and of another type if not. -/
theorem readOutline_integer {g : Int} (hg : k.greatest? = some g) (hrange : ¬ (0 ≤ n ∧ n ≤ g)) :
    readOutline (.integer n) k =
      .error (if isWord64 n then outOfRange n k else wrongType (.integer n) k) := by
  have hsize64 : (UInt64.size : Int) = 0x10000000000000000 := rfl
  have hsize32 : (UInt32.size : Int) = 0x100000000 := rfl
  cases k with
  | count =>
      cases hg
      rw [readOutline, natural, if_neg (by omega)]
      rfl
  | mode =>
      cases hg
      rw [readOutline, natural, if_neg (by omega)]
      rfl
  | flag => cases hg

theorem readOutline_boolean {g : Int} (hg : k.greatest? = some g) (b : Bool) :
    readOutline (.boolean b) k = .error (wrongType (.boolean b) k) := by
  cases k with
  | count => rfl
  | mode => rfl
  | flag => cases hg

theorem readOutline_flag (hg : k.greatest? = none) (n : Int) :
    readOutline (.integer n) k = .error (wrongType (.integer n) k) := by
  cases k with
  | count => cases hg
  | mode => cases hg
  | flag => rfl

end Words

/-- **A literal that is not of the kind expected is complained of.** -/
theorem explains : format.Explains Literal.value where
  read_eq {k l said} hl hsays := by
    cases hsays with
    | outOfRange hg hrange hword =>
        have hread := readOutline_integer hg hrange
        rw [if_pos (isWord64_iff.2 hword)] at hread
        exact hread
    | @wide negative n hword =>
        have hread : readOutline (.integer (withSign negative n)) k =
            .error (wrongType (.integer (withSign negative n)) k) := by
          cases hg : k.greatest? with
          | none => exact readOutline_flag hg _
          | some g =>
              have hrange := mt (Setting.Kind.isWord_of_le hg) hword
              rw [readOutline_integer hg hrange, if_neg (mt isWord64_iff.1 hword)]
        rw [wrongType_wide hword (by have hlt := hl.2; omega)] at hread
        exact hread
    | boolean hg b =>
        have hread := readOutline_boolean hg b
        rw [wrongType_boolean] at hread
        exact hread
    | @number negative n hg hword =>
        have hread := readOutline_flag hg (withSign negative n)
        rw [wrongType_word hword] at hread
        exact hread
  skip_eq {l} _ := by cases l <;> rfl

end RecordLog.Toml
