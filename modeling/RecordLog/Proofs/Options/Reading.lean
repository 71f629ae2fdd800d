import RecordLog.Proofs.Options.Format

/-!
# Plain lines taken one after the other

Options are read from what a format hands over, one entry after the other. If these come from plain
lines with no key given twice, each line is taken by itself: one for a setting gives it a value if
its literal is of the kind, and is reported if not, and one for another key leaves what has been
found as it is. So all lines are taken, or the first in the order of the format that does not suit
its setting is reported.

## Main definitions

* `RecordLog.Options.isSetting` and `RecordLog.Options.Suits`.
* `RecordLog.Options.IsUsual`, lines whose literals are not too large.
* `RecordLog.Options.Found.takeLines`.

## Main results

* `RecordLog.Options.Found.take_cases`, for one line, and
  `RecordLog.Options.Found.takeLines_cases`, for lines in a row.
* `RecordLog.Options.Found.takeLines_filter`: lines for other keys make no difference.
-/

namespace RecordLog.Options

open Format (entryOf)
open Toml (Line Literal)

/-! ### Keys of settings -/

theorem ofKey?_eq_some_iff {k : Text} {s : Setting} : Setting.ofKey? k = some s ↔ k = s.key := by
  constructor
  · intro h
    have hkey := List.find?_some h
    exact (decide_eq_true_iff.1 hkey).symm
  · rintro rfl
    exact Setting.ofKey?_key s

theorem Setting.key_injective : Function.Injective Setting.key := fun s s' h => by
  have hs := ofKey?_eq_some_iff.2 h
  rw [Setting.ofKey?_key] at hs
  exact Option.some.inj hs

/-- Whether a line is for one of the settings. -/
def isSetting (l : Line) : Bool := (Setting.ofKey? l.key).isSome

theorem isSetting_of_key_eq {l : Line} {s : Setting} (h : l.key = s.key) : isSetting l = true := by
  rw [isSetting, ofKey?_eq_some_iff.2 h]
  rfl

theorem exists_key_eq_of_isSetting {l : Line} (h : isSetting l = true) :
    ∃ s : Setting, l.key = s.key := by
  obtain ⟨s, hs⟩ := Option.isSome_iff_exists.1 h
  exact ⟨s, ofKey?_eq_some_iff.1 hs⟩

/-- A line that is for no setting, or for one that its literal is of the kind of. -/
def Suits (l : Line) : Prop := ∀ s : Setting, l.key = s.key → s.kind.Takes l.literal

/-- A line with a number of 128 bits at most, and with one of 64 bits if it is for no setting. -/
def IsUsual (l : Line) : Prop :=
  l.literal.IsReadable ∧ (isSetting l = false → l.literal.IsShort)

instance (l : Line) : Decidable (IsUsual l) := inferInstanceAs (Decidable (_ ∧ _))

/-- A line is for a setting that its literal is not of the kind of, and this is what is said of it.
-/
def IsFault (l : Line) (said : Text) : Prop :=
  ∃ s : Setting, l.key = s.key ∧ s.kind.Complains l.literal said

theorem IsFault.not_suits {l : Line} {said : Text} (h : IsFault l said) : ¬ Suits l := by
  obtain ⟨s, hkey, hsays⟩ := h
  exact fun hsuits => hsays.not_takes (hsuits s hkey)

namespace Found

variable {f : Format} {value : Literal → f.Value} {g : Found} {l : Line} {ls : List Line}

/-! ### A single line -/

theorem put_self (g : Found) (s : Setting) (x : s.kind.Carrier) : g.put s x s = some x :=
  dif_pos rfl

theorem put_of_ne {s s' : Setting} (h : s ≠ s') (x : s.kind.Carrier) : g.put s x s' = g s' :=
  dif_neg h

theorem take_of_key_eq {s : Setting} (hkey : l.key = s.key) (hg : g s = none) (v : f.Value) :
    take f g l.key v = (f.read s.kind v).map (g.put s) := by
  rw [take, ofKey?_eq_some_iff.2 hkey]
  simp only [hg, Option.isSome_none, Bool.false_eq_true, if_false]

theorem take_of_not_isSetting (hl : isSetting l = false) (v : f.Value) :
    take f g l.key v = (f.skip v).map fun () => g := by
  have hnone : Setting.ofKey? l.key = none := Option.not_isSome_iff_eq_none.1 (by
    rw [isSetting] at hl
    rw [hl]
    exact Bool.false_ne_true)
  rw [take, hnone]

/-- Nothing has been found yet for the settings of some lines. -/
def IsFresh (g : Found) (ls : List Line) : Prop :=
  ∀ l ∈ ls, ∀ s : Setting, l.key = s.key → g s = none

/-- **A line is taken or reported.** If it is taken, what has been found changes at most for its
setting. -/
theorem take_cases (hreads : f.ReadsValues value) (hexplains : f.Explains value)
    (hl : IsUsual l) (hg : ∀ s : Setting, l.key = s.key → g s = none) :
    (Suits l ∧ ∃ g', take f g l.key (value l.literal) = .ok g' ∧
        ∀ s : Setting, l.key ≠ s.key → g' s = g s) ∨
      ∃ said, IsFault l said ∧ take f g l.key (value l.literal) = .error said := by
  cases hsetting : isSetting l with
  | false =>
      have hne (s : Setting) : l.key ≠ s.key := fun hkey =>
        Bool.false_ne_true (hsetting.symm.trans (isSetting_of_key_eq hkey))
      refine .inl ⟨fun s hs => absurd hs (hne s), g, ?_, fun s _ => rfl⟩
      rw [take_of_not_isSetting hsetting, hexplains.skip_eq (hl.2 hsetting)]
      rfl
  | true =>
      obtain ⟨s, hkey⟩ := exists_key_eq_of_isSetting hsetting
      have htake := take_of_key_eq (f := f) hkey (hg s hkey) (value l.literal)
      rcases Setting.Kind.takes_or_complains s.kind l.literal with htakes | ⟨said, hsays⟩
      · obtain ⟨x, hx⟩ := hreads.exists_read_eq htakes
        rw [hx] at htake
        refine .inl ⟨fun s' hs' => ?_, g.put s x, htake, fun s' hs' => put_of_ne ?_ x⟩
        · rwa [← Setting.key_injective (hkey.symm.trans hs')]
        · rintro rfl
          exact hs' hkey
      · rw [hexplains.read_eq hl.1 hsays] at htake
        exact .inr ⟨said, ⟨s, hkey, hsays⟩, htake⟩

/-! ### Lines in a row -/

/-- What has been found after lines in a row. -/
def takeLines (f : Format) (value : Literal → f.Value) (g : Found) (ls : List Line) :
    Except Text Found :=
  (ls.map (entryOf value)).foldlM (fun g e => take f g e.1 e.2) g

theorem takeLines_nil (g : Found) : takeLines f value g [] = .ok g := rfl

theorem takeLines_of_ok {g' : Found} (h : take f g l.key (value l.literal) = .ok g')
    (ls : List Line) : takeLines f value g (l :: ls) = takeLines f value g' ls := by
  have hentry : take f g (entryOf value l).1 (entryOf value l).2 = .ok g' := h
  rw [takeLines, List.map_cons, List.foldlM_cons, hentry]
  rfl

theorem takeLines_of_error {said : Text} (h : take f g l.key (value l.literal) = .error said)
    (ls : List Line) : takeLines f value g (l :: ls) = .error said := by
  have hentry : take f g (entryOf value l).1 (entryOf value l).2 = .error said := h
  rw [takeLines, List.map_cons, List.foldlM_cons, hentry]
  rfl

/-- What is fresh for lines of which no two have the same key stays so for all but the first. -/
theorem IsFresh.tail (hkeys : ((l :: ls).map Line.key).Nodup) (hg : IsFresh g (l :: ls))
    {g' : Found} (hsame : ∀ s : Setting, l.key ≠ s.key → g' s = g s) : IsFresh g' ls := by
  intro m hm s hs
  have hne : l.key ≠ s.key := by
    intro heq
    rw [List.map_cons, List.nodup_cons] at hkeys
    exact hkeys.1 (heq.trans hs.symm ▸ List.mem_map_of_mem hm)
  rw [hsame s hne]
  exact hg m (List.mem_cons_of_mem l hm) s hs

/-- **Lines are all taken, or the first that does not suit is reported.** -/
theorem takeLines_cases (hreads : f.ReadsValues value) (hexplains : f.Explains value)
    (hls : ∀ l ∈ ls, IsUsual l) (hkeys : (ls.map Line.key).Nodup) (hg : IsFresh g ls) :
    ((∀ l ∈ ls, Suits l) ∧ ∃ g', takeLines f value g ls = .ok g') ∨
      ∃ before l after said, ls = before ++ l :: after ∧ (∀ m ∈ before, Suits m) ∧
        IsFault l said ∧ takeLines f value g ls = .error said := by
  induction ls generalizing g with
  | nil => exact .inl ⟨nofun, g, takeLines_nil g⟩
  | cons l ls ih =>
      obtain ⟨hl, hls⟩ := List.forall_mem_cons.1 hls
      rcases take_cases hreads hexplains hl (hg l List.mem_cons_self) with
        ⟨hsuits, g', htake, hsame⟩ | ⟨said, hfault, htake⟩
      · rw [takeLines_of_ok htake]
        rcases ih hls (List.nodup_cons.1 hkeys).2 (hg.tail hkeys hsame) with
          ⟨hall, hok⟩ | ⟨before, m, after, said, rfl, hbefore, hfault, herror⟩
        · exact .inl ⟨List.forall_mem_cons.2 ⟨hsuits, hall⟩, hok⟩
        · exact .inr ⟨l :: before, m, after, said, rfl,
            List.forall_mem_cons.2 ⟨hsuits, hbefore⟩, hfault, herror⟩
      · exact .inr ⟨[], l, ls, said, rfl, nofun, hfault, takeLines_of_error htake ls⟩

/-- **Lines for other keys make no difference.** -/
theorem takeLines_filter (hexplains : f.Explains value) (hls : ∀ l ∈ ls, IsUsual l) (g : Found) :
    takeLines f value g (ls.filter isSetting) = takeLines f value g ls := by
  induction ls generalizing g with
  | nil => rfl
  | cons l ls ih =>
      obtain ⟨hl, hls⟩ := List.forall_mem_cons.1 hls
      cases hsetting : isSetting l with
      | false =>
          have htake : take f g l.key (value l.literal) = .ok g := by
            rw [take_of_not_isSetting hsetting, hexplains.skip_eq (hl.2 hsetting)]
            rfl
          rw [List.filter_cons_of_neg (by rw [hsetting]; exact Bool.false_ne_true),
            takeLines_of_ok htake, ih hls]
      | true =>
          rw [List.filter_cons_of_pos hsetting]
          cases htake : take f g l.key (value l.literal) with
          | error said => rw [takeLines_of_error htake, takeLines_of_error htake]
          | ok g' => rw [takeLines_of_ok htake, takeLines_of_ok htake, ih hls]

end Found

/-! ### Documents -/

variable {f : Format} {value : Literal → f.Value} {t : Text} {ms : List Line}

theorem ofDocument_of_entries (h : f.entries t = .ok (ms.map (entryOf value))) :
    ofDocument f t =
      ((Found.takeLines f value .nothing ms).map Found.options).mapError complaint := by
  rw [ofDocument, h]
  rfl

theorem Found.isFresh_nothing (ls : List Line) : Found.nothing.IsFresh ls := fun _ _ _ _ => rfl

end RecordLog.Options
