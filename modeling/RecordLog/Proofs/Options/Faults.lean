import Mathlib.Data.List.Nodup
import RecordLog.Proofs.Options.Reading
import RecordLog.Proofs.System.Report
import RecordLog.Proofs.Toml.Format

/-!
# What is wrong with a document of options

A document of plain lines gives options if each setting is given what it takes: a number that is not
too large for it, or a truth value. What stands under other keys does not matter. Otherwise one of
the lines is reported. If several of them are wrong, it is not the first one that is, but the one
with the least key, as long as the format hands entries over in the order of their keys: options are
read in the order of the format and have none of their own.

## Main results

* `RecordLog.Options.ofDocument_cases`: a document gives options, or one of its lines is reported.
* `RecordLog.Options.ofDocument_filter`: lines for other keys make no difference.
* `RecordLog.Options.ofDocument_blames_least`: when a document gives options, and what is said if
  not.
* `RecordLog.Options.ofDocument_outOfOrder`: the first line that is wrong need not be reported.
-/

namespace RecordLog.Options

open Toml (Line Literal)
open Format (entryOf)

variable {f : Format} {value : Literal → f.Value} {ls ms : List Line}

/-! ### Lines in the order of their keys -/

/-- Lines in the order of their keys. -/
def IsInOrder (ls : List Line) : Prop := ls.Pairwise fun l m => ¬ m.key < l.key

theorem isInOrder_of_entries {t : Text} (horder : f.HandsOverInOrder)
    (h : f.entries t = .ok (ms.map (entryOf value))) : IsInOrder ms :=
  List.pairwise_map.1 (horder t _ h)

/-- There is one order of lines of which no two have the same key. -/
theorem IsInOrder.eq_of_perm {ls' : List Line} (h : IsInOrder ls) (h' : IsInOrder ls')
    (hkeys : (ls.map Line.key).Nodup) (hperm : ls.Perm ls') : ls = ls' := by
  refine List.Perm.eq_of_pairwise (fun l m hl hm hlm hml => ?_) h h' hperm
  have hkey : l.key = m.key := List.le_antisymm (List.not_lt.1 hlm) (List.not_lt.1 hml)
  exact List.inj_on_of_nodup_map hkeys hl (hperm.mem_iff.2 hm) hkey

/-- Of lines in order, none that is wrong has a lesser key than the first that is. -/
theorem IsInOrder.not_lt_of_suits {before after : List Line} {l m : Line}
    (h : IsInOrder (before ++ l :: after)) (hbefore : ∀ m ∈ before, Suits m)
    (hm : m ∈ before ++ l :: after) (hnot : ¬ Suits m) : ¬ m.key < l.key := by
  rcases List.mem_append.1 hm with hmem | hmem
  · exact absurd (hbefore m hmem) hnot
  · rcases List.mem_cons.1 hmem with rfl | hafter
    · exact List.lt_irrefl _
    · exact (List.pairwise_cons.1 (List.pairwise_append.1 h).2.1).1 m hafter

/-! ### Documents -/

theorem message_complaint {said : Text} (h : said ≠ []) :
    (complaint said).message = Utf8.encode ("bad io options: ".toList ++ said) := by
  have hencode : Utf8.encode said ≠ [] := Utf8.encode_ne_nil h
  have hwords : Utf8.encode "bad io options: ".toList =
      Bytes.ofAscii "bad io options" ++ Bytes.ofAscii ": " := by decide
  rw [complaint, Status.message_new (by decide), Status.joined, if_neg hencode, Utf8.encode_append,
    hwords]

/-- **A document gives options, or one of its lines is reported**, and none of the others that are
wrong has a lesser key. -/
theorem ofDocument_cases (hlines : f.ReadsLines value IsUsual) (horder : f.HandsOverInOrder)
    (hreads : f.ReadsValues value) (hexplains : f.Explains value) (ended : Bool)
    (hkeys : (ls.map Line.key).Nodup) (hls : ∀ l ∈ ls, IsUsual l) :
    ((∀ l ∈ ls, Suits l) ∧ ∃ o, ofDocument f (Line.document ended ls) = .ok o) ∨
      ∃ l ∈ ls, ∃ said, IsFault l said ∧ (∀ m ∈ ls, ¬ Suits m → ¬ m.key < l.key) ∧
        ofDocument f (Line.document ended ls) = .error (complaint said) := by
  obtain ⟨ms, hperm, hentries⟩ := hlines ended ls hkeys hls
  have hinOrder : IsInOrder ms := isInOrder_of_entries horder hentries
  have hms : ∀ m ∈ ms, IsUsual m := fun m hm => hls m (hperm.mem_iff.1 hm)
  have hkeys' : (ms.map Line.key).Nodup := (hperm.map Line.key).nodup_iff.2 hkeys
  rw [ofDocument_of_entries hentries]
  rcases Found.takeLines_cases hreads hexplains hms hkeys' (Found.isFresh_nothing ms) with
    ⟨hall, g, hg⟩ | ⟨before, l, after, said, rfl, hbefore, hfault, herror⟩
  · rw [hg]
    exact .inl ⟨fun l hl => hall l (hperm.mem_iff.2 hl), g.options, rfl⟩
  · rw [herror]
    refine .inr ⟨l, hperm.mem_iff.1 ?_, said, hfault, fun m hm hnot => ?_, rfl⟩
    · exact List.mem_append_right before List.mem_cons_self
    · exact hinOrder.not_lt_of_suits hbefore (hperm.mem_iff.2 hm) hnot

/-- **Lines for other keys make no difference**, wherever they are. -/
theorem ofDocument_filter (hlines : f.ReadsLines value IsUsual) (horder : f.HandsOverInOrder)
    (hexplains : f.Explains value) (ended ended' : Bool) (hkeys : (ls.map Line.key).Nodup)
    (hls : ∀ l ∈ ls, IsUsual l) :
    ofDocument f (Line.document ended' (ls.filter isSetting)) =
      ofDocument f (Line.document ended ls) := by
  have hkeys' : ((ls.filter isSetting).map Line.key).Nodup :=
    (List.filter_sublist.map Line.key).nodup hkeys
  obtain ⟨ms, hperm, hentries⟩ := hlines ended ls hkeys hls
  obtain ⟨ms', hperm', hentries'⟩ := hlines ended' (ls.filter isSetting) hkeys' fun l hl =>
    hls l (List.mem_of_mem_filter hl)
  have hms : ms' = ms.filter isSetting := by
    have hinOrder : IsInOrder (ms.filter isSetting) :=
      (isInOrder_of_entries horder hentries).filter _
    refine (isInOrder_of_entries horder hentries').eq_of_perm hinOrder ?_
      (hperm'.trans (hperm.filter isSetting).symm)
    exact (hperm'.map Line.key).nodup_iff.2 hkeys'
  rw [ofDocument_of_entries hentries, ofDocument_of_entries hentries', hms,
    Found.takeLines_filter hexplains fun m hm => hls m (hperm.mem_iff.1 hm)]

/-- **A document gives options, or the line with the least key that is wrong is reported**, as long
as its format hands entries over in the order of their keys. It gives options just if all settings
that have a line take its literal. Lines for other keys make no difference, wherever they are. If a
setting does not take the literal of its line, the status says what is wrong with one of those
lines, than which none of the others has a lesser key. -/
theorem ofDocument_blames_least (hlines : f.ReadsLines value IsUsual)
    (horder : f.HandsOverInOrder) (hreads : f.ReadsValues value) (hexplains : f.Explains value)
    (ended : Bool) (hkeys : (ls.map Line.key).Nodup) (hls : ∀ l ∈ ls, IsUsual l) :
    ((∃ o, ofDocument f (Line.document ended ls) = .ok o) ↔
        ∀ l ∈ ls, ∀ s : Setting, l.key = s.key → s.kind.Takes l.literal) ∧
      (∀ ended', ofDocument f (Line.document ended' (ls.filter isSetting)) =
        ofDocument f (Line.document ended ls)) ∧
      ∀ e, ofDocument f (Line.document ended ls) = .error e →
        ∃ l ∈ ls, ∃ s : Setting, l.key = s.key ∧ ¬ s.kind.Takes l.literal ∧
          (∀ m ∈ ls, ∀ s' : Setting, m.key = s'.key → ¬ s'.kind.Takes m.literal →
            ¬ m.key < l.key) ∧
          e.code = .invalidArgument ∧
          ∃ said, s.kind.Complains l.literal said ∧
            e.message = Utf8.encode ("bad io options: ".toList ++ said) := by
  have hcases := ofDocument_cases hlines horder hreads hexplains ended hkeys hls
  refine ⟨⟨?_, fun hsuits => ?_⟩, fun ended' => ?_, fun e he => ?_⟩
  · rintro ⟨o, ho⟩
    rcases hcases with ⟨hsuits, -⟩ | ⟨l, -, said, -, -, herror⟩
    · exact hsuits
    · cases ho.symm.trans herror
  · rcases hcases with ⟨-, hok⟩ | ⟨l, hl, said, hfault, -⟩
    · exact hok
    · exact absurd (hsuits l hl) hfault.not_suits
  · exact ofDocument_filter hlines horder hexplains ended ended' hkeys hls
  · rcases hcases with ⟨-, o, ho⟩ | ⟨l, hl, said, ⟨s, hkey, hsays⟩, hmin, herror⟩
    · cases ho.symm.trans he
    · obtain rfl := Except.error.inj (herror.symm.trans he)
      refine ⟨l, hl, s, hkey, hsays.not_takes, fun m hm s' hs' hnot => hmin m hm fun hsuits => ?_,
        code_complaint said, said, hsays, message_complaint hsays.ne_nil⟩
      exact hnot (hsuits s' hs')

/-! ### Documents of keys and values -/

/-- A line for a setting. -/
def Setting.line (s : Setting) (l : Literal) : Line where
  key := s.key
  literal := l
  key_ne_nil := by cases s <;> decide
  isBare_of_mem := by cases s <;> exact List.all_iff_forall_prop.1 (by decide)

theorem ofDocument_format (ended : Bool) (hkeys : (ls.map Line.key).Nodup)
    (hread : ∀ l ∈ ls, l.literal.IsReadable) :
    ofDocument Toml.format (Line.document ended ls) =
      (ofEntries Toml.format (Toml.inOrder Prod.fst (ls.map Line.entry))).mapError complaint := by
  have hentries : Toml.format.entries (Line.document ended ls) =
      .ok (Toml.inOrder Prod.fst (ls.map Line.entry)) :=
    Toml.entries_of_document?_eq (Toml.document?_document ended hkeys hread)
  rw [ofDocument, hentries]

/-- A line for a key that is no setting, between two lines of which only the second is wrong, with
the least number that is too large for a mode. -/
def withUnknown : List Line :=
  [Setting.bufferCapacity.line (.integer false 0xffffffffffffffff),
    { key := "depth".toList, literal := .integer true 3, key_ne_nil := by decide,
      isBare_of_mem := List.all_iff_forall_prop.1 (by decide) },
    Setting.fileMode.line (.integer false 0x100000000)]

/-- What is said of a number that is too large for a mode. -/
def tooLarge : Status := complaint "invalid value: integer `4294967296`, expected u32".toList

theorem ofDocument_blames_least_too_large :
    (withUnknown.map Line.key).Nodup ∧ (∀ l ∈ withUnknown, IsUsual l) ∧
      ofDocument Toml.format (Line.document true withUnknown) = .error tooLarge ∧
      ∃ l ∈ withUnknown, ∃ s : Setting, l.key = s.key ∧ ¬ s.kind.Takes l.literal ∧
        (∀ m ∈ withUnknown, ∀ s' : Setting, m.key = s'.key → ¬ s'.kind.Takes m.literal →
          ¬ m.key < l.key) ∧
        tooLarge.code = .invalidArgument ∧
        ∃ said, s.kind.Complains l.literal said ∧
          tooLarge.message = Utf8.encode ("bad io options: ".toList ++ said) := by
  have hkeys : (withUnknown.map Line.key).Nodup := by decide
  have hread : ∀ l ∈ withUnknown, l.literal.IsReadable := by decide
  have husual : ∀ l ∈ withUnknown, IsUsual l := by decide
  have herror : ofDocument Toml.format (Line.document true withUnknown) = .error tooLarge := by
    rw [ofDocument_format true hkeys hread]
    rfl
  exact ⟨hkeys, husual, herror, (ofDocument_blames_least (Toml.readsLines.mono fun l hl => hl.1)
    Toml.handsOverInOrder Toml.readsValues Toml.explains true hkeys husual).2.2 _ herror⟩

/-- Two lines that are both wrong, the second with a lesser key than the first. -/
def outOfOrder : List Line :=
  [Setting.fileMode.line (.boolean true), Setting.dirMode.line (.integer true 1)]

/-- **The first line that is wrong need not be reported.** Here it is the one for the mode of files,
and what is said is about the one for the mode of directories. -/
theorem ofDocument_outOfOrder :
    Line.document true outOfOrder = "file_mode = true\ndir_mode = -1\n".toList ∧
      Setting.fileMode.kind.Complains (.boolean true)
        "invalid type: boolean `true`, expected u32".toList ∧
      ∃ e, ofDocument Toml.format (Line.document true outOfOrder) = .error e ∧
        e.message ≠ Utf8.encode
          "bad io options: invalid type: boolean `true`, expected u32".toList ∧
        e.message = Utf8.encode
          "bad io options: invalid value: integer `-1`, expected u32".toList := by
  have herror : ofDocument Toml.format (Line.document true outOfOrder) =
      .error (complaint "invalid value: integer `-1`, expected u32".toList) := by
    rw [ofDocument_format true (by decide) (by decide)]
    rfl
  exact ⟨by decide, .boolean rfl true, _, herror, by decide, by decide⟩

end RecordLog.Options
