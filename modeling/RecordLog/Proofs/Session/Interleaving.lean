import RecordLog.Proofs.Session.Appending
import RecordLog.Proofs.Writer.Locality

/-!
# Interleaved writers

The writers of a session are used in turns. If no two of them write to the same file, none of them
can tell that there are others: whoever uses the writer under a handle sees the answers, the states
of the writer and in the end the file that are seen if nothing but this is done. So the turns may
come in any order, as long as each writer's own come in theirs.

A close or a drop takes a writer off its file, which is why it is the file at the beginning that a
handle is followed by: the writer is later on this file or on none.

## Main definitions

* `RecordLog.Session.own`, `RecordLog.Session.seen` and `RecordLog.Session.alone`.
* `RecordLog.Session.Alike`.

## Main results

* `RecordLog.Session.Alike.step_own` and `RecordLog.Session.Alike.step_other`, with
  `RecordLog.Session.Alike.after` for steps in a row.
* `RecordLog.Session.writers_do_not_interfere`.
-/

namespace RecordLog.Session

/-! ### What concerns one handle -/

/-- Of some steps those that use the writer under a handle. -/
def own (h : String) (steps : List Step) : List Step := steps.filter (·.handle? = some h)

/-- What is seen under a handle while steps are made: the answers to the steps that use it, each
with the writer after it. -/
def seen (s : Session) (h : String) (steps : List Step) : List (Answer × Option Held) :=
  ((steps.zip (s.run steps)).filter (·.1.handle? = some h)).map fun x =>
    (x.2.1, x.2.2.held.lookup h)

/-- A session with the writer under one handle only. -/
def alone (s : Session) (h : String) : Session := { s with held := s.held.filter (·.1 = h) }

variable {s t : Session} {a b : Step} {h k : String} {o : Option Nat} {id : Nat}
  {steps rest : List Step}

theorem lookup_alone (s : Session) (h : String) :
    (s.alone h).held.lookup h = s.held.lookup h := by
  rw [alone]
  induction s.held with
  | nil => rfl
  | cons x rest ih =>
      obtain ⟨k, x⟩ := x
      by_cases hk : k = h
      · subst hk
        simp
      · have hfilter : ((k, x) :: rest).filter (fun y => decide (y.1 = h)) =
            rest.filter (fun y => decide (y.1 = h)) := by simp [hk]
        rw [hfilter, ih, lookup_cons_of_ne x rest (Ne.symm hk)]

theorem own_cons_of_eq (ha : a.handle? = some h) (rest : List Step) :
    own h (a :: rest) = a :: own h rest := by
  simp [own, ha]

theorem own_cons_of_ne (ha : a.handle? ≠ some h) (rest : List Step) :
    own h (a :: rest) = own h rest := by
  simp [own, ha]

theorem seen_cons_of_eq (ha : a.handle? = some h) (s : Session) (rest : List Step) :
    s.seen h (a :: rest) =
      ((s.step a).1, (s.step a).2.held.lookup h) :: (s.step a).2.seen h rest := by
  simp [seen, run, ha]

theorem seen_cons_of_ne (ha : a.handle? ≠ some h) (s : Session) (rest : List Step) :
    s.seen h (a :: rest) = (s.step a).2.seen h rest := by
  simp [seen, run, ha]

/-! ### Sessions alike under one handle -/

/-- Two sessions are alike under a handle that is followed by a file: they have the same writer
under it, and the same file. In the first one nobody else writes to that file. -/
structure Alike (h : String) (o : Option Nat) (s t : Session) : Prop where
  lookup_eq : s.held.lookup h = t.held.lookup h
  agreeOn : s.volume.AgreeOn o t.volume
  file_eq : s.fileOf h = none ∨ s.fileOf h = o
  fileOf_ne : ∀ k id, k ≠ h → o = some id → s.fileOf k ≠ some id

/-- What is left of a session for one of its handles is alike under it. -/
theorem HaveOwnFiles.alike_alone (hs : s.HaveOwnFiles) (h : String) :
    Alike h (s.fileOf h) s (s.alone h) where
  lookup_eq := (lookup_alone s h).symm
  agreeOn := .refl _ _
  file_eq := Or.inr rfl
  fileOf_ne _ _ hne hh hk := hne (hs hk hh)

/-- A step on another handle does not matter. -/
theorem Alike.step_other (halike : Alike h o s t) (ha : a.handle? = some k) (hne : k ≠ h) :
    Alike h o (s.step a).2 t := by
  have huses := s.uses_step ha
  have hlookup := huses.lookup_eq h hne.symm
  refine ⟨hlookup.trans halike.lookup_eq, ?_, ?_, fun j id hj hid => ?_⟩
  · exact halike.agreeOn.of_keepsTo huses.keepsTo (.refl _ _) fun id => halike.fileOf_ne k id hne
  · rw [fileOf_eq_of_lookup_eq hlookup]
    exact halike.file_eq
  · exact huses.fileOf_ne (halike.fileOf_ne j id hj hid)

/-- **A step on the handle is answered alike**, and leaves the sessions alike under it. -/
theorem Alike.step_own (halike : Alike h o s t) (ha : a.handle? = some h) :
    (s.step a).1 = (t.step a).1 ∧ Alike h o (s.step a).2 (t.step a).2 := by
  have huses := s.uses_step ha
  have hfile : (s.step a).2.fileOf h = none ∨ (s.step a).2.fileOf h = o := by
    rcases huses.file_eq with hnone | hsame
    · exact Or.inl hnone
    · rw [hsame]
      exact halike.file_eq
  have hothers (k : String) (id : Nat) (hk : k ≠ h) (hid : o = some id) :
      (s.step a).2.fileOf k ≠ some id := huses.fileOf_ne (halike.fileOf_ne k id hk hid)
  suffices hsame : (s.step a).1 = (t.step a).1 ∧
      (s.step a).2.held.lookup h = (t.step a).2.held.lookup h ∧
      (s.step a).2.volume.AgreeOn o (t.step a).2.volume from
    ⟨hsame.1, hsame.2.1, hsame.2.2, hfile, hothers⟩
  have hlookup := halike.lookup_eq
  have hwriter := halike.file_eq
  rw [fileOf] at hwriter
  cases hx : s.held.lookup h with
  | none =>
      have hx' : t.held.lookup h = none := hlookup.symm.trans hx
      cases a with
      | act k | drop k | inspect k =>
          obtain rfl : k = h := Option.some.inj ha
          simp only [step, hx, hx']
          exact ⟨trivial, trivial, halike.agreeOn⟩
      | openNew | openChosen | createDirectory | remove | changeSettings | scratchDirectory
      | requireScratch => cases ha
  | some x =>
      have hx' : t.held.lookup h = some x := hlookup.symm.trans hx
      rw [hx, Option.bind_some] at hwriter
      cases a with
      | act k a =>
          obtain rfl : k = h := Option.some.inj ha
          obtain ⟨r, v, v', w, hout, hout', hagree⟩ :=
            Writer.alike_apply_of_file halike.agreeOn hwriter a
          rw [step_act hx, step_act hx', hout, hout']
          exact ⟨rfl, by rw [lookup_insert_self, lookup_insert_self], hagree⟩
      | drop k =>
          obtain rfl : k = h := Option.some.inj ha
          simp only [step, hx, hx', lookup_erase_self]
          exact ⟨trivial, trivial, Writer.agreeOn_drop_of_file halike.agreeOn hwriter⟩
      | inspect k =>
          obtain rfl : k = h := Option.some.inj ha
          rw [snd_step_inspect, snd_step_inspect]
          refine ⟨?_, hlookup, halike.agreeOn⟩
          simp only [step, hx, hx']
          cases x.writer <;> rfl
      | openNew | openChosen | createDirectory | remove | changeSettings | scratchDirectory
      | requireScratch => cases ha

/-- **Steps in a row come to the same under a handle as those on it by themselves.** -/
theorem Alike.after (halike : Alike h o s t) (hsteps : ∀ a ∈ steps, a.handle? ≠ none) :
    s.seen h steps = t.seen h (own h steps) ∧
      Alike h o (s.after steps) (t.after (own h steps)) := by
  induction steps generalizing s t with
  | nil => exact ⟨rfl, halike⟩
  | cons a rest ih =>
      obtain ⟨ha, hrest⟩ := List.forall_mem_cons.1 hsteps
      by_cases hown : a.handle? = some h
      · obtain ⟨hanswer, hstep⟩ := halike.step_own hown
        obtain ⟨hseen, hafter⟩ := ih hstep hrest
        rw [own_cons_of_eq hown, seen_cons_of_eq hown, seen_cons_of_eq hown, hanswer,
          hstep.lookup_eq, hseen]
        exact ⟨rfl, hafter⟩
      · obtain ⟨k, hk⟩ := Option.ne_none_iff_exists'.1 ha
        have hne : k ≠ h := fun hkh => hown (hk.trans (congrArg some hkh))
        rw [own_cons_of_ne hown, seen_cons_of_ne hown]
        exact ih (halike.step_other hk hne) hrest

/-! ### Interleavings -/

/-- **Only the order of each writer's own steps matters.** -/
theorem HaveOwnFiles.after_eq (hs : s.HaveOwnFiles) {steps' : List Step}
    (hsteps : ∀ a ∈ steps, a.handle? ≠ none) (hsteps' : ∀ a ∈ steps', a.handle? ≠ none)
    (hown : ∀ h, own h steps = own h steps') :
    (s.after steps).volume = (s.after steps').volume ∧
      ∀ h, s.seen h steps = s.seen h steps' ∧
        (s.after steps).held.lookup h = (s.after steps').held.lookup h := by
  have halike (h : String) := (hs.alike_alone h).after hsteps
  have halike' (h : String) := (hs.alike_alone h).after hsteps'
  refine ⟨?_, fun h => ⟨?_, ?_⟩⟩
  · obtain ⟨hentries, hdirectory, hconditions, hfiles⟩ := s.volume_after hsteps
    obtain ⟨hentries', hdirectory', hconditions', hfiles'⟩ := s.volume_after hsteps'
    refine Volume.ext (hentries.trans hentries'.symm) (List.ext_getElem? fun id => ?_)
      (hdirectory.trans hdirectory'.symm) (hconditions.trans hconditions'.symm)
    by_cases hid : ∃ h, s.fileOf h = some id
    · obtain ⟨h, hh⟩ := hid
      rw [(halike h).2.agreeOn.file_eq id hh, (halike' h).2.agreeOn.file_eq id hh, hown]
    · have hnone (h : String) : s.fileOf h ≠ some id := fun hh => hid ⟨h, hh⟩
      rw [hfiles id hnone, hfiles' id hnone]
  · rw [(halike h).1, (halike' h).1, hown]
  · rw [(halike h).2.lookup_eq, (halike' h).2.lookup_eq, hown]

theorem own_pair_swap (ha : a.handle? = some h) (hb : b.handle? = some k) (hne : h ≠ k)
    (j : String) : own j [a, b] = own j [b, a] := by
  by_cases haj : a.handle? = some j
  · have hbj : b.handle? ≠ some j := by
      rw [hb]
      rintro ⟨⟩
      exact hne (Option.some.inj (ha.symm.trans haj))
    rw [own_cons_of_eq haj, own_cons_of_ne hbj, own_cons_of_ne hbj, own_cons_of_eq haj]
  · by_cases hbj : b.handle? = some j
    · rw [own_cons_of_ne haj, own_cons_of_eq hbj, own_cons_of_eq hbj, own_cons_of_ne haj]
    · rw [own_cons_of_ne haj, own_cons_of_ne hbj, own_cons_of_ne hbj, own_cons_of_ne haj]

/-- **Steps on two handles commute**: each is answered as if it came first, and in the end all is
the same. -/
theorem HaveOwnFiles.commute (hs : s.HaveOwnFiles) (ha : a.handle? = some h)
    (hb : b.handle? = some k) (hne : h ≠ k) :
    ((s.step b).2.step a).1 = (s.step a).1 ∧ ((s.step a).2.step b).1 = (s.step b).1 ∧
      (s.after [a, b]).volume = (s.after [b, a]).volume ∧
      ∀ j, (s.after [a, b]).held.lookup j = (s.after [b, a]).held.lookup j := by
  have hanswer {a b : Step} {h k : String} (ha : a.handle? = some h) (hb : b.handle? = some k)
      (hne : h ≠ k) : ((s.step b).2.step a).1 = (s.step a).1 := by
    have hfirst := ((hs.alike_alone h).step_own ha).1
    have hsecond := (((hs.alike_alone h).step_other hb hne.symm).step_own ha).1
    rw [hfirst, hsecond]
  have hsteps : ∀ c ∈ [a, b], c.handle? ≠ none := by simp [ha, hb]
  have hsteps' : ∀ c ∈ [b, a], c.handle? ≠ none := by simp [ha, hb]
  obtain ⟨hvolume, hheld⟩ := hs.after_eq hsteps hsteps' (own_pair_swap ha hb hne)
  exact ⟨hanswer ha hb hne, hanswer hb ha hne.symm, hvolume, fun j => (hheld j).2⟩

/-- **Writers on different files do not interfere.** Let the writers of a session, no two of them on
one file, be used in turns. What is seen under a handle, that is every answer and every state of the
writer, is what is seen if only the steps on this handle are made and no other writer is there; so
are the writer in the end and the file that it had. No other file changes, nor does the tree.
Wherever the turns have come to, two steps on different handles may be exchanged, and a step on one
handle leaves the writer under another one and its file as they are. -/
theorem writers_do_not_interfere (hs : s.HaveOwnFiles) (hsteps : ∀ a ∈ steps, a.handle? ≠ none) :
    (∀ h, s.seen h steps = (s.alone h).seen h (own h steps) ∧
        (s.after steps).held.lookup h = ((s.alone h).after (own h steps)).held.lookup h ∧
        ∀ id, s.fileOf h = some id → (s.after steps).volume.files[id]? =
          ((s.alone h).after (own h steps)).volume.files[id]?) ∧
      ((s.after steps).volume.entries = s.volume.entries ∧
        (s.after steps).volume.workingDirectory = s.volume.workingDirectory ∧
        (s.after steps).volume.conditions = s.volume.conditions ∧
        ∀ id, (∀ h, s.fileOf h ≠ some id) →
          (s.after steps).volume.files[id]? = s.volume.files[id]?) ∧
      (∀ {a b h k}, a.handle? = some h → b.handle? = some k → h ≠ k →
        (((s.after steps).step b).2.step a).1 = ((s.after steps).step a).1 ∧
        (((s.after steps).step a).2.step b).1 = ((s.after steps).step b).1 ∧
        ((s.after steps).after [a, b]).volume = ((s.after steps).after [b, a]).volume ∧
        ∀ j, ((s.after steps).after [a, b]).held.lookup j =
          ((s.after steps).after [b, a]).held.lookup j) ∧
      ∀ {a h k}, a.handle? = some k → h ≠ k →
        ((s.after steps).step a).2.held.lookup h = (s.after steps).held.lookup h ∧
        ∀ id, s.fileOf h = some id → ((s.after steps).step a).2.volume.files[id]? =
          (s.after steps).volume.files[id]? := by
  refine ⟨fun h => ?_, s.volume_after hsteps, fun ha hb hne => (hs.after hsteps).commute ha hb hne,
    fun {a h k} ha hne => ?_⟩
  · obtain ⟨hseen, halike⟩ := (hs.alike_alone h).after hsteps
    exact ⟨hseen, halike.lookup_eq, halike.agreeOn.file_eq⟩
  · have huses := (s.after steps).uses_step ha
    refine ⟨huses.lookup_eq h hne, fun id hid => huses.keepsTo.file_eq id ?_⟩
    exact ((hs.alike_alone h).after hsteps).2.fileOf_ne k id hne.symm hid

/-- A session on a new volume, with a buffered writer on one file and a direct one on another. -/
def mixedWriters : Session :=
  atStart.after [.openChosen "a" (Bytes.ofAscii "p") .buffered false,
    .openChosen "b" (Bytes.ofAscii "q") .direct false]

/-- The two writers in turns, with a close and a drop among them. -/
def mixedTurns : List Step :=
  [.act "a" (.append [1, 2]), .act "b" (.append [9]), .inspect "a", .act "a" .flush,
    .act "b" .close, .act "a" (.append [3]), .act "b" (.append [8]), .drop "a"]

/-- The buffered writer sees nothing of the other one, and its file has all three bytes. -/
theorem writers_do_not_interfere_mixed :
    mixedWriters.HaveOwnFiles ∧ (∀ a ∈ mixedTurns, a.handle? ≠ none) ∧
      mixedWriters.fileOf "a" = some 0 ∧
      mixedWriters.seen "a" mixedTurns =
        (mixedWriters.alone "a").seen "a" (own "a" mixedTurns) ∧
      (mixedWriters.after mixedTurns).volume.files[0]? =
        ((mixedWriters.alone "a").after (own "a" mixedTurns)).volume.files[0]? ∧
      (mixedWriters.after mixedTurns).volume.content? 0 = some [1, 2, 3] := by
  have hapart : mixedWriters.IsApart :=
    (isApart_of_held_eq_nil (s := atStart) rfl).after ⟨by decide, by decide, trivial⟩
  have hsteps : ∀ a ∈ mixedTurns, a.handle? ≠ none := by decide
  have hfile : mixedWriters.fileOf "a" = some 0 := by decide
  obtain ⟨hall, -⟩ := writers_do_not_interfere hapart.haveOwnFiles hsteps
  obtain ⟨hseen, -, hfiles⟩ := hall "a"
  exact ⟨hapart.haveOwnFiles, hsteps, hfile, hseen, hfiles 0 hfile, by decide⟩

end RecordLog.Session
