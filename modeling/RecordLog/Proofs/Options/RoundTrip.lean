import Mathlib.Data.List.Nodup
import Mathlib.Data.List.Perm.Basic
import Mathlib.Data.Set.List
import RecordLog.Proofs.Options.Reading
import RecordLog.Proofs.Toml.Format

/-!
# Options there and back

The lines that options are written as are plain ones, and each gives its setting a literal that it
takes. Some of them, in any order, make a document that sets just these settings, in whichever order
the format hands them over: it is read as options that are the written ones there, and the defaults
elsewhere. All of them, in the order in which they are written, give back the options.

## Main definitions

* `RecordLog.Options.only`, options with defaults for all settings but some.
* `RecordLog.Options.line`, the line that gives a setting the value that options say.

## Main results

* `RecordLog.Options.takeLines_settingLines`: what is found in lines of options.
* `RecordLog.Options.ofDocument_lines`: what lines of options are read as.
-/

namespace RecordLog.Options

open Toml (Line Literal withSign)

variable {f : Format} {value : Literal → f.Value} (o : Options)

/-- Options that say what others do about some settings, with defaults for the others. -/
def only (ks : List Setting) : Options :=
  ofValues fun s => if s ∈ ks then o.value s else ({} : Options).value s

/-- The line that gives a setting the value that options say. -/
def line (s : Setting) : Text :=
  s.key ++ " = ".toList ++ (s.kind.scalar (o.value s)).text ++ ['\n']

/-- A line whose literal is of some kind. -/
def IsOfKind (l : Line) : Prop := ∃ k : Setting.Kind, k.Takes l.literal

/-! ### Lines of options -/

/-- What a setting is given in its line. -/
def literal : Setting → Literal
  | .bufferCapacity => .integer false o.bufferCapacity.toNat
  | .fileMode => .integer false o.fileMode.toNat
  | .dirMode => .integer false o.dirMode.toNat
  | .syncMetadata => .boolean o.syncMetadata

theorem nonneg_withSign_false (n : Nat) : 0 ≤ withSign false n := Int.natCast_nonneg n

theorem Setting.Kind.takes_natural {k : Setting.Kind} {g : Int} (hg : k.greatest? = some g)
    {n : Nat} (h : (n : Int) ≤ g) : k.Takes (.integer false n) :=
  .number hg (nonneg_withSign_false n) h

theorem takes_literal (s : Setting) : s.kind.Takes (o.literal s) := by
  have hcapacity := o.bufferCapacity.toNat_lt
  have hfile := o.fileMode.toNat_lt
  have hdir := o.dirMode.toNat_lt
  cases s with
  | bufferCapacity => exact Setting.Kind.takes_natural rfl (by omega)
  | fileMode => exact Setting.Kind.takes_natural rfl (by omega)
  | dirMode => exact Setting.Kind.takes_natural rfl (by omega)
  | syncMetadata => exact .flag _

/-- What is of some kind can be read. -/
theorem Setting.Kind.Takes.isReadable {k : Setting.Kind} {l : Literal} (h : k.Takes l) :
    l.IsReadable := by
  cases h with
  | number hg hlow hhigh =>
      have hword := Setting.Kind.isWord_of_le hg ⟨hlow, hhigh⟩
      exact ⟨Int.le_trans (by decide) hword.1, Int.lt_of_le_of_lt hword.2 (by decide)⟩
  | flag b => trivial

/-- What a setting is given is read as what options say. -/
theorem read_literal (hreads : f.ReadsValues value) (s : Setting) :
    f.read s.kind (value (o.literal s)) = .ok (o.value s) := by
  cases s with
  | bufferCapacity =>
      have hread := hreads.count (nonneg_withSign_false _) o.bufferCapacity.toNat_lt
      rwa [UInt64.ofNat_toNat] at hread
  | fileMode =>
      have hread := hreads.mode (nonneg_withSign_false _) o.fileMode.toNat_lt
      rwa [UInt32.ofNat_toNat] at hread
  | dirMode =>
      have hread := hreads.mode (nonneg_withSign_false _) o.dirMode.toNat_lt
      rwa [UInt32.ofNat_toNat] at hread
  | syncMetadata => exact hreads.flag _

theorem Setting.key_ne_nil (s : Setting) : s.key ≠ [] := by cases s <;> decide

theorem Setting.isBare_of_mem_key (s : Setting) : ∀ c ∈ s.key, Toml.isBare c = true := by
  cases s <;> exact List.all_iff_forall_prop.1 (by decide)

/-- The line for a setting. -/
def settingLine (s : Setting) : Line where
  key := s.key
  literal := o.literal s
  key_ne_nil := s.key_ne_nil
  isBare_of_mem := s.isBare_of_mem_key

theorem text_settingLine (s : Setting) : (o.settingLine s).text ++ ['\n'] = o.line s := by
  cases s <;> rfl

theorem document_settingLines (ks : List Setting) :
    Line.document true (ks.map o.settingLine) = ks.flatMap o.line := by
  rw [Line.document_true, List.flatMap_map]
  exact congrArg (ks.flatMap ·) (funext o.text_settingLine)

/-! ### What is found -/

/-- **Lines of options are all taken**, and what is found is what the options say about their
settings. -/
theorem takeLines_settingLines (hreads : f.ReadsValues value) {ks : List Setting} (hks : ks.Nodup)
    {g : Found} (hg : ∀ s ∈ ks, g s = none) :
    ∃ g', Found.takeLines f value g (ks.map o.settingLine) = .ok g' ∧
      ∀ s, g' s = if s ∈ ks then some (o.value s) else g s := by
  induction ks generalizing g with
  | nil => exact ⟨g, rfl, fun s => (if_neg List.not_mem_nil).symm⟩
  | cons k ks ih =>
      obtain ⟨hk, hks⟩ := List.nodup_cons.1 hks
      have htake : Found.take f g (o.settingLine k).key (value (o.settingLine k).literal) =
          .ok (g.put k (o.value k)) := by
        have hread := o.read_literal hreads k
        rw [Found.take_of_key_eq rfl (hg k List.mem_cons_self)]
        exact hread ▸ rfl
      have hfresh : ∀ s ∈ ks, g.put k (o.value k) s = none := fun s hs => by
        rw [Found.put_of_ne (ne_of_mem_of_not_mem hs hk).symm]
        exact hg s (List.mem_cons_of_mem k hs)
      obtain ⟨g', hg', hvalue⟩ := ih hks hfresh
      refine ⟨g', (Found.takeLines_of_ok htake _).trans hg', fun s => ?_⟩
      rw [hvalue s]
      rcases eq_or_ne k s with rfl | hne
      · rw [if_neg hk, if_pos List.mem_cons_self, Found.put_self]
      · simp only [Found.put_of_ne hne, List.mem_cons, hne.symm, false_or]

/-- Lines of options in some order are those of the settings in some order. -/
theorem exists_perm_settingLines {ks : List Setting} {ms : List Line}
    (hperm : ms.Perm (ks.map o.settingLine)) :
    ∃ ks' : List Setting, ks'.Perm ks ∧ ms = ks'.map o.settingLine := by
  have hmem : ms ∈ Set.range (List.map o.settingLine) := by
    rw [Set.range_list_map]
    intro m hm
    obtain ⟨s, -, rfl⟩ := List.mem_map.1 (hperm.mem_iff.1 hm)
    exact ⟨s, rfl⟩
  have hinjective : Function.Injective o.settingLine := fun s s' h =>
    Setting.key_injective (congrArg Line.key h)
  obtain ⟨ks', rfl⟩ := hmem
  exact ⟨ks', (List.map_perm_map_iff hinjective).1 hperm, rfl⟩

theorem ofDocument_settingLines (hlines : f.ReadsLines value IsOfKind)
    (hreads : f.ReadsValues value) (ended : Bool) {ks : List Setting} (hks : ks.Nodup) :
    ofDocument f (Line.document ended (ks.map o.settingLine)) = .ok (o.only ks) := by
  have hkeys : ((ks.map o.settingLine).map Line.key).Nodup := by
    rw [List.map_map]
    exact hks.map Setting.key_injective
  have hkind : ∀ l ∈ ks.map o.settingLine, IsOfKind l := fun l hl => by
    obtain ⟨s, -, rfl⟩ := List.mem_map.1 hl
    exact ⟨s.kind, o.takes_literal s⟩
  obtain ⟨ms, hperm, hentries⟩ := hlines ended _ hkeys hkind
  obtain ⟨ks', hks', rfl⟩ := o.exists_perm_settingLines hperm
  obtain ⟨g, hg, hvalue⟩ := o.takeLines_settingLines hreads (hks'.nodup_iff.2 hks)
    (g := .nothing) fun _ _ => rfl
  have hoptions : g.options = o.only ks := by
    refine congrArg ofValues (funext fun s => ?_)
    rw [hvalue s]
    simp only [hks'.mem_iff]
    split <;> rfl
  rw [ofDocument_of_entries hentries, hg, ← hoptions]
  rfl

/-! ### Documents that are written -/

/-- The numbers of options are of 64 bits. -/
theorem lt_of_scalar_eq {s : Setting} {n : Nat} (h : s.kind.scalar (o.value s) = .natural n) :
    n < UInt64.size := by
  cases s with
  | bufferCapacity =>
      cases h
      exact o.bufferCapacity.toNat_lt
  | fileMode =>
      cases h
      exact o.fileMode.toNat_lt.trans (by decide)
  | dirMode =>
      cases h
      exact o.dirMode.toNat_lt.trans (by decide)
  | syncMetadata => cases h

/-- Options are written as the lines of all settings. -/
theorem toDocument_eq (hwrites : f.WritesLines) :
    o.toDocument f = .ok (Setting.all.flatMap o.line) := by
  rw [toDocument, hwrites, List.flatMap_map]
  · rfl
  · intro e he
    obtain ⟨s, -, rfl⟩ := List.mem_map.1 he
    exact ⟨s.key_ne_nil, s.isBare_of_mem_key⟩
  · rw [List.map_map]
    exact (List.Nodup.map Setting.key_injective (by decide) : (Setting.all.map Setting.key).Nodup)
  · intro k n hn
    obtain ⟨s, -, hs⟩ := List.mem_map.1 hn
    exact o.lt_of_scalar_eq (Prod.mk.inj hs).2

theorem only_all : o.only Setting.all = o := by
  refine Eq.trans (congrArg ofValues (funext fun s => ?_)) o.ofValues_value
  exact if_pos s.mem_all

/-- **Lines of options give what the options say about their settings**, whichever settings these
are and in whichever order, with defaults for the others, and a line feed behind the last of them
makes no difference. What options are written as gives the options. The format needs to read plain
lines of words and to write them. -/
theorem ofDocument_lines (hlines : f.ReadsLines value IsOfKind) (hreads : f.ReadsValues value)
    (hwrites : f.WritesLines) (ks : List Setting) (hks : ks.Nodup) :
    ofDocument f (ks.flatMap o.line) = .ok (o.only ks) ∧
      ofDocument f (ks.flatMap o.line).dropLast = .ok (o.only ks) ∧
      o.toDocument f = .ok (Setting.all.flatMap o.line) ∧
      ofDocument f (Setting.all.flatMap o.line) = .ok o := by
  refine ⟨?_, ?_, o.toDocument_eq hwrites, ?_⟩
  · rw [← document_settingLines]
    exact o.ofDocument_settingLines hlines hreads true hks
  · rw [← document_settingLines, ← Line.document_false]
    exact o.ofDocument_settingLines hlines hreads false hks
  · rw [← document_settingLines, o.ofDocument_settingLines hlines hreads true (by decide), only_all]

/-- Options with the greatest numbers there are for two settings, and the least for a third. -/
def extreme : Options where
  bufferCapacity := 0xffffffffffffffff
  fileMode := 0xffffffff
  dirMode := 0
  syncMetadata := true

theorem ofDocument_lines_extreme :
    [Setting.syncMetadata, .bufferCapacity].flatMap extreme.line =
        "sync_metadata = true\nbuffer_capacity = 18446744073709551615\n".toList ∧
      ofDocument Toml.format
          "sync_metadata = true\nbuffer_capacity = 18446744073709551615\n".toList =
        .ok { bufferCapacity := 0xffffffffffffffff, syncMetadata := true } ∧
      ∃ t, extreme.toDocument Toml.format = .ok t ∧ ofDocument Toml.format t = .ok extreme := by
  have htext : [Setting.syncMetadata, .bufferCapacity].flatMap extreme.line =
      "sync_metadata = true\nbuffer_capacity = 18446744073709551615\n".toList := by decide
  have hlines := extreme.ofDocument_lines
    (Toml.readsLines.mono fun l hl => hl.choose_spec.isReadable) Toml.readsValues Toml.writesLines
    [.syncMetadata, .bufferCapacity] (by decide)
  exact ⟨htext, htext ▸ hlines.1, _, hlines.2.2⟩

end RecordLog.Options
