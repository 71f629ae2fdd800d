import RecordLog.Proofs.Volume.Tree

/-!
# Where names lead

A walk passes through directories and links, and what it has passed does not matter any more: only
where it stands, which names are left and how many links may still be followed. All walks pass
through the same directories and links, whatever the path is wanted for; only at the last name can
they differ. A tree that grows keeps the way that a walk has found.

## Main definitions

* `RecordLog.Volume.Reaches`, how a walk comes from one point to another.
* `RecordLog.Volume.IsEnd`, the points from which no walk goes on.
* `RecordLog.Volume.Leads`, the path of a directory, and `RecordLog.Volume.EndsIn`, one that ends in
  a name.

## Main results

* `RecordLog.Volume.Reaches.walk_eq` and `RecordLog.Volume.Reaches.walk_nil`.
* `RecordLog.Volume.exists_reaches` and `RecordLog.Volume.leads_cases`.
* `RecordLog.Volume.Leads.mono`, `RecordLog.Volume.Leads.isDirectory` and
  `RecordLog.Volume.Leads.makeDirectory_eq`.
* `RecordLog.Volume.leads_of_makeDirectory`.
* `RecordLog.Volume.makeDirectory_of_isDirectory`.
-/

namespace RecordLog.Volume

variable {v v' : Volume} {u : Purpose} {k k' : Nat} {dir l : Location} {n : Name}
  {ns ns' : List Name} {slashed : Bool} {p : Bytes}

/-! ### Walks -/

/-- How a walk goes on that comes to a link. -/
def follower (v : Volume) (u : Purpose) : Nat → Location → List Name → Bool → Except Int Place
  | 0 => fun _ _ _ => .error Errno.tooManyLinks
  | k + 1 => v.walk u k

theorem walk_eq_walkNames (v : Volume) (u : Purpose) (k : Nat) (dir : Location) (ns : List Name)
    (slashed : Bool) :
    v.walk u k dir ns slashed = v.walkNames u (v.follower u k) slashed dir ns := by
  cases k <;> rfl

/-- A name that is looked up in a directory. -/
structure IsProper (n : Name) : Prop where
  ne_nil : n ≠ []
  ne_dot : n ≠ Path.dot
  ne_dotDot : n ≠ Path.dotDot

theorem walk_nil : v.walk u k dir [] slashed = .ok (.directory dir) := by
  rw [walk_eq_walkNames, walkNames]

theorem walk_blank : v.walk u k dir ([] :: ns) slashed = v.walk u k dir ns slashed := by
  rw [walk_eq_walkNames, walkNames, if_pos rfl, ← walk_eq_walkNames]

theorem walk_dot (hsearch : v.canSearch dir = true) :
    v.walk u k dir (Path.dot :: ns) slashed = v.walk u k dir ns slashed := by
  rw [walk_eq_walkNames, walkNames, if_neg (by decide), hsearch, if_neg (by decide), if_pos rfl,
    ← walk_eq_walkNames]

theorem walk_dotDot (hsearch : v.canSearch dir = true) :
    v.walk u k dir (Path.dotDot :: ns) slashed = v.walk u k dir.dropLast ns slashed := by
  rw [walk_eq_walkNames, walkNames, if_neg (by decide), hsearch, if_neg (by decide),
    if_neg (by decide), if_pos rfl, ← walk_eq_walkNames]

theorem walk_locked (hn : n ≠ []) (hsearch : v.canSearch dir = false) :
    v.walk u k dir (n :: ns) slashed = .error Errno.accessDenied := by
  rw [walk_eq_walkNames, walkNames, if_neg hn, hsearch, if_pos (by decide)]

/-- The last name of a walk is split off, unless a link is followed there. -/
theorem walk_singleton (hn : IsProper n) (hsearch : v.canSearch dir = true)
    (hlink : ∀ target, v.entry? (dir ++ [n]) = some (.symlink target) → u.follows slashed = false) :
    v.walk u k dir [n] slashed = .ok (.name dir n slashed) := by
  rw [walk_eq_walkNames, walkNames, if_neg hn.ne_nil, hsearch, if_neg (by decide),
    if_neg hn.ne_dot, if_neg hn.ne_dotDot, if_pos rfl]
  split
  · rename_i target hentry
    rw [hlink target hentry, if_neg (by decide)]
  · rfl

/-- How a walk goes on with the names that are left, from what there is at a name. -/
def onward (v : Volume) (u : Purpose) (k : Nat) (dir : Location) (n : Name) (ns : List Name)
    (slashed : Bool) : Option Entry → Except Int Place
  | none => .error Errno.noEntry
  | some (.directory _) => v.walk u k (dir ++ [n]) ns slashed
  | some (.symlink target) => v.follower u k (origin dir target) (Path.names target ++ ns) slashed
  | some _ => .error Errno.notDirectory

/-- A name of a walk that is not the last one. -/
theorem walk_cons (hn : IsProper n) (hsearch : v.canSearch dir = true) (hns : ns ≠ []) :
    v.walk u k dir (n :: ns) slashed =
      if maxName < n.length then .error Errno.nameTooLong
      else v.onward u k dir n ns slashed (v.entry? (dir ++ [n])) := by
  rw [walk_eq_walkNames, walkNames, if_neg hn.ne_nil, hsearch, if_neg (by decide),
    if_neg hn.ne_dot, if_neg hn.ne_dotDot, if_neg hns]
  cases v.entry? (dir ++ [n]) with
  | none => rfl
  | some e =>
      cases e with
      | directory m => rw [onward, walk_eq_walkNames]
      | file | symlink | device => rfl

/-! ### From one point to another -/

/-- A walk that stands in a directory, with names left and links to follow, comes to another such
point. -/
inductive Reaches (v : Volume) (k' : Nat) (l : Location) (ns' : List Name) :
    Nat → Location → List Name → Prop
  | here : Reaches v k' l ns' k' l ns'
  | blank {k : Nat} {dir : Location} {ns : List Name} (h : Reaches v k' l ns' k dir ns) :
      Reaches v k' l ns' k dir ([] :: ns)
  | dot {k : Nat} {dir : Location} {ns : List Name} (hsearch : v.canSearch dir = true)
      (h : Reaches v k' l ns' k dir ns) : Reaches v k' l ns' k dir (Path.dot :: ns)
  | dotDot {k : Nat} {dir : Location} {ns : List Name} (hsearch : v.canSearch dir = true)
      (h : Reaches v k' l ns' k dir.dropLast ns) : Reaches v k' l ns' k dir (Path.dotDot :: ns)
  | down {k : Nat} {dir : Location} {n : Name} {ns : List Name} {m : Mode} (hn : IsProper n)
      (hsearch : v.canSearch dir = true) (hshort : n.length ≤ maxName)
      (hentry : v.entry? (dir ++ [n]) = some (.directory m))
      (h : Reaches v k' l ns' k (dir ++ [n]) ns) : Reaches v k' l ns' k dir (n :: ns)
  | link {k : Nat} {dir : Location} {n : Name} {ns : List Name} {target : Bytes} (hn : IsProper n)
      (hsearch : v.canSearch dir = true) (hshort : n.length ≤ maxName)
      (hentry : v.entry? (dir ++ [n]) = some (.symlink target)) (hns : ns ≠ [])
      (h : Reaches v k' l ns' k (origin dir target) (Path.names target ++ ns)) :
      Reaches v k' l ns' (k + 1) dir (n :: ns)

namespace Reaches

theorem eq_nil (h : v.Reaches k' l ns' k dir []) : ns' = [] := by
  cases h
  rfl

/-- The point at which a walk will arrive is all that matters, as long as names are left there. -/
theorem walk_eq (h : v.Reaches k' l ns' k dir ns) (hns' : ns' ≠ []) (u : Purpose)
    (slashed : Bool) : v.walk u k dir ns slashed = v.walk u k' l ns' slashed := by
  induction h with
  | here => rfl
  | blank _ ih => rw [walk_blank, ih]
  | dot hsearch _ ih => rw [walk_dot hsearch, ih]
  | dotDot hsearch _ ih => rw [walk_dotDot hsearch, ih]
  | @down k dir n ns m hn hsearch hshort hentry h ih =>
      have hns : ns ≠ [] := by
        rintro rfl
        exact hns' h.eq_nil
      rw [walk_cons hn hsearch hns, if_neg (Nat.not_lt.2 hshort), hentry]
      exact ih
  | link hn hsearch hshort hentry hns _ ih =>
      rw [walk_cons hn hsearch hns, if_neg (Nat.not_lt.2 hshort), hentry]
      exact ih

/-- More names are left in the end if there are more from the start. -/
theorem append (h : v.Reaches k' l ns' k dir ns) (more : List Name) :
    v.Reaches k' l (ns' ++ more) k dir (ns ++ more) := by
  induction h with
  | here => exact .here
  | blank _ ih => exact .blank ih
  | dot hsearch _ ih => exact .dot hsearch ih
  | dotDot hsearch _ ih => exact .dotDot hsearch ih
  | down hn hsearch hshort hentry _ ih => exact .down hn hsearch hshort hentry ih
  | link hn hsearch hshort hentry hns _ ih =>
      rw [List.append_assoc] at ih
      exact .link hn hsearch hshort hentry (List.append_ne_nil_of_left_ne_nil hns more) ih

theorem trans {k₀ : Nat} {l₀ : Location} {ns₀ : List Name} (h : v.Reaches k' l ns' k dir ns)
    (h₀ : v.Reaches k₀ l₀ ns₀ k' l ns') : v.Reaches k₀ l₀ ns₀ k dir ns := by
  induction h with
  | here => exact h₀
  | blank _ ih => exact .blank ih
  | dot hsearch _ ih => exact .dot hsearch ih
  | dotDot hsearch _ ih => exact .dotDot hsearch ih
  | down hn hsearch hshort hentry _ ih => exact .down hn hsearch hshort hentry ih
  | link hn hsearch hshort hentry hns _ ih => exact .link hn hsearch hshort hentry hns ih

/-- **A tree that grows keeps the ways in it.** -/
theorem mono (h : v.Reaches k' l ns' k dir ns) (hv : v.GrowsTo v') :
    v'.Reaches k' l ns' k dir ns := by
  induction h with
  | here => exact .here
  | blank _ ih => exact .blank ih
  | dot hsearch _ ih => exact .dot (hv.canSearch hsearch) ih
  | dotDot hsearch _ ih => exact .dotDot (hv.canSearch hsearch) ih
  | down hn hsearch hshort hentry _ ih =>
      exact .down hn (hv.canSearch hsearch) hshort (hv.entry?_eq _ _ hentry) ih
  | link hn hsearch hshort hentry hns _ ih =>
      exact .link hn (hv.canSearch hsearch) hshort (hv.entry?_eq _ _ hentry) hns ih

/-- A walk on which no name is left has come to a directory, or stopped before its name. -/
theorem walk_nil (h : v.Reaches k' l [] k dir ns) (u : Purpose) (slashed : Bool) :
    v.walk u k dir ns slashed = .ok (.directory l) ∨
      ∃ dir' n m, v.walk u k dir ns slashed = .ok (.name dir' n slashed) ∧ l = dir' ++ [n] ∧
        n.length ≤ maxName ∧ v.entry? l = some (.directory m) := by
  induction h with
  | here => exact Or.inl Volume.walk_nil
  | blank _ ih => rwa [walk_blank]
  | dot hsearch _ ih => rwa [walk_dot hsearch]
  | dotDot hsearch _ ih => rwa [walk_dotDot hsearch]
  | @down k dir n ns m hn hsearch hshort hentry h ih =>
      by_cases hns : ns = []
      · subst hns
        cases h
        refine Or.inr ⟨dir, n, m, walk_singleton hn hsearch fun target htarget => ?_, rfl, hshort,
          hentry⟩
        rw [hentry] at htarget
        cases htarget
      · rw [walk_cons hn hsearch hns, if_neg (Nat.not_lt.2 hshort), hentry]
        exact ih
  | link hn hsearch hshort hentry hns _ ih =>
      rw [walk_cons hn hsearch hns, if_neg (Nat.not_lt.2 hshort), hentry]
      exact ih

end Reaches

/-! ### Where walks end -/

/-- A point from which no walk goes on: no name is left, or only the last one, or the names that
are left lead nowhere, whatever comes after them. -/
inductive IsEnd (v : Volume) (k : Nat) (l : Location) : List Name → Prop
  | nil : IsEnd v k l []
  | last {n : Name} (hn : IsProper n) (hsearch : v.canSearch l = true) : IsEnd v k l [n]
  | stuck {ns : List Name} (hns : ns ≠ [])
      (h : ∀ u more slashed, ∃ e, v.walk u k l (ns ++ more) slashed = .error e) : IsEnd v k l ns

/-- A walk comes to an end, if one does that follows a link first. -/
theorem exists_reaches_of_follow
    (hfollow : ∀ j, k = j + 1 → ∀ dir ns, ∃ k' l ns', v.Reaches k' l ns' j dir ns ∧
      v.IsEnd k' l ns') (dir : Location) (ns : List Name) :
    ∃ k' l ns', v.Reaches k' l ns' k dir ns ∧ v.IsEnd k' l ns' := by
  induction ns generalizing dir with
  | nil => exact ⟨k, dir, [], .here, .nil⟩
  | cons n ns ih =>
      have hstuck (e : Int)
          (h : ∀ u more slashed, v.walk u k dir (n :: (ns ++ more)) slashed = .error e) :
          ∃ k' l ns', v.Reaches k' l ns' k dir (n :: ns) ∧ v.IsEnd k' l ns' :=
        ⟨k, dir, n :: ns, .here,
          .stuck (List.cons_ne_nil n ns) fun u more slashed => ⟨e, h u more slashed⟩⟩
      by_cases hblank : n = []
      · obtain ⟨k', l, ns', h, hend⟩ := ih dir
        exact ⟨k', l, ns', hblank ▸ .blank h, hend⟩
      by_cases hsearch : v.canSearch dir = false
      · exact hstuck _ fun u more slashed => walk_locked hblank hsearch
      rw [Bool.not_eq_false] at hsearch
      by_cases hdot : n = Path.dot
      · obtain ⟨k', l, ns', h, hend⟩ := ih dir
        exact ⟨k', l, ns', hdot ▸ .dot hsearch h, hend⟩
      by_cases hdotDot : n = Path.dotDot
      · obtain ⟨k', l, ns', h, hend⟩ := ih dir.dropLast
        exact ⟨k', l, ns', hdotDot ▸ .dotDot hsearch h, hend⟩
      have hn : IsProper n := ⟨hblank, hdot, hdotDot⟩
      by_cases hns : ns = []
      · subst hns
        exact ⟨k, dir, [n], .here, .last hn hsearch⟩
      have hmore (more : List Name) : ns ++ more ≠ [] :=
        List.append_ne_nil_of_left_ne_nil hns more
      by_cases hlong : maxName < n.length
      · exact hstuck _ fun u more slashed => by rw [walk_cons hn hsearch (hmore more), if_pos hlong]
      have hshort := Nat.le_of_not_lt hlong
      cases hentry : v.entry? (dir ++ [n]) with
      | none =>
          refine hstuck Errno.noEntry fun u more slashed => ?_
          rw [walk_cons hn hsearch (hmore more), if_neg hlong, hentry]
          rfl
      | some e =>
          cases e with
          | directory m =>
              obtain ⟨k', l, ns', h, hend⟩ := ih (dir ++ [n])
              exact ⟨k', l, ns', .down hn hsearch hshort hentry h, hend⟩
          | symlink target =>
              cases k with
              | zero =>
                  refine hstuck Errno.tooManyLinks fun u more slashed => ?_
                  rw [walk_cons hn hsearch (hmore more), if_neg hlong, hentry]
                  rfl
              | succ j =>
                  obtain ⟨k', l, ns', h, hend⟩ := hfollow j rfl (origin dir target)
                    (Path.names target ++ ns)
                  exact ⟨k', l, ns', .link hn hsearch hshort hentry hns h, hend⟩
          | file | device =>
              refine hstuck Errno.notDirectory fun u more slashed => ?_
              rw [walk_cons hn hsearch (hmore more), if_neg hlong, hentry]
              rfl

/-- **Every walk comes to an end.** -/
theorem exists_reaches (v : Volume) (k : Nat) (dir : Location) (ns : List Name) :
    ∃ k' l ns', v.Reaches k' l ns' k dir ns ∧ v.IsEnd k' l ns' := by
  induction k generalizing dir ns with
  | zero => exact exists_reaches_of_follow (fun j hj => absurd hj.symm (Nat.succ_ne_zero j)) dir ns
  | succ k ih =>
      refine exists_reaches_of_follow (fun j hj => ?_) dir ns
      obtain rfl : k = j := Nat.succ.inj hj
      exact ih

/-! ### Paths of directories -/

/-- A path that can be walked at all. -/
structure IsValid (p : Bytes) : Prop where
  no_nul : 0 ∉ p
  ne_nil : p ≠ []
  length_le : p.length ≤ maxPath

theorem locate_of_isValid (hp : IsValid p) (v : Volume) (u : Purpose) :
    v.locate u p =
      (v.walk u maxLinks (origin v.workingDirectory p) (u.names p) (u.slashed p)).mapError .os := by
  rw [locate, if_neg hp.no_nul, if_neg hp.ne_nil, if_neg (Nat.not_lt.2 hp.length_le)]

theorem locate_entry_of_isValid (hp : IsValid p) (v : Volume) :
    v.locate .entry p = (v.walk .entry maxLinks (origin v.workingDirectory p) (Path.names p)
      (Path.endsInSlash p)).mapError .os :=
  locate_of_isValid hp v .entry

theorem isValid_of_locate {place : Place} (h : v.locate u p = .ok place) : IsValid p := by
  unfold locate at h
  split_ifs at h with hnul hnil hlong
  exact ⟨hnul, hnil, Nat.le_of_not_lt hlong⟩

/-- A path is that of a directory. -/
structure Leads (v : Volume) (p : Bytes) (l : Location) : Prop where
  valid : IsValid p
  reaches : ∃ k, v.Reaches k l [] maxLinks (origin v.workingDirectory p) (Path.names p)

namespace Leads

/-- A path is still that of a directory in a tree that has grown. -/
theorem mono (h : v.Leads p l) (hv : v.GrowsTo v') : v'.Leads p l := by
  obtain ⟨k, hk⟩ := h.reaches
  rw [← hv.workingDirectory_eq] at hk
  exact ⟨h.valid, k, hk.mono hv⟩

/-- The path of a directory is that of an entry. -/
theorem makeDirectory_eq (h : v.Leads p l) (asked : Mode) :
    v.makeDirectory p asked = .error (.os Errno.entryExists) := by
  obtain ⟨k, hk⟩ := h.reaches
  rw [makeDirectory, locate_entry_of_isValid h.valid]
  obtain hwalk | ⟨dir, n, m, hwalk, rfl, hshort, hentry⟩ :=
    hk.walk_nil .entry (Path.endsInSlash p)
  · rw [hwalk]
    rfl
  · rw [hwalk]
    dsimp only [Except.mapError]
    rw [if_neg (Nat.not_lt.2 hshort), hentry]

theorem isDirectory (h : v.Leads p l) : v.isDirectory p = true := by
  obtain ⟨k, hk⟩ := h.reaches
  have hnames : v.Reaches k l [] maxLinks (origin v.workingDirectory p)
      (Purpose.object.names p) := by
    rw [Purpose.names]
    split_ifs
    · exact (hk.append [[]]).trans (.blank .here)
    · rwa [List.append_nil]
  rw [Volume.isDirectory, locate_of_isValid h.valid]
  obtain hwalk | ⟨dir, n, m, hwalk, rfl, -, hentry⟩ :=
    hnames.walk_nil .object (Purpose.object.slashed p)
  · rw [hwalk]
    rfl
  · rw [hwalk]
    dsimp only [Except.mapError]
    rw [hentry]

end Leads

/-- The names of a path end in one that is looked up in a directory. -/
structure EndsIn (v : Volume) (p : Bytes) (dir : Location) (n : Name) : Prop where
  valid : IsValid p
  proper : IsProper n
  search : v.canSearch dir = true
  reaches : ∃ k, v.Reaches k dir [n] maxLinks (origin v.workingDirectory p) (Path.names p)

theorem EndsIn.locate_eq {dir : Location} (h : v.EndsIn p dir n) :
    v.locate .entry p = .ok (.name dir n (Path.endsInSlash p)) := by
  obtain ⟨k, hk⟩ := h.reaches
  rw [locate_entry_of_isValid h.valid, hk.walk_eq (List.cons_ne_nil n []),
    walk_singleton h.proper h.search fun _ _ => rfl]
  rfl

/-- A path is that of a directory, or it ends in a name, or it leads nowhere. -/
theorem leads_cases (hp : IsValid p) (v : Volume) :
    (∃ l, v.Leads p l) ∨
      (∃ dir n, v.EndsIn p dir n) ∨
      ∀ u, ∃ e, v.locate u p = .error e := by
  obtain ⟨k, l, ns, h, hend⟩ :=
    exists_reaches v maxLinks (origin v.workingDirectory p) (Path.names p)
  cases hend with
  | nil => exact Or.inl ⟨l, hp, k, h⟩
  | @last n hn hsearch => exact Or.inr (Or.inl ⟨l, n, hp, hn, hsearch, k, h⟩)
  | stuck hns hstuck =>
      refine Or.inr (Or.inr fun u => ?_)
      have hmore : ∃ more, u.names p = Path.names p ++ more := by
        cases u with
        | object => exact ⟨_, rfl⟩
        | entry | target => exact ⟨[], (List.append_nil _).symm⟩
      obtain ⟨more, hmore⟩ := hmore
      obtain ⟨e, he⟩ := hstuck u more (u.slashed p)
      refine ⟨.os e, ?_⟩
      rw [locate_of_isValid hp, hmore,
        (h.append more).walk_eq (List.append_ne_nil_of_left_ne_nil hns more), he]
      rfl

/-- **A directory that is made is found at its path.** It has been added there. -/
theorem leads_of_makeDirectory {asked : Mode} (h : v.makeDirectory p asked = .ok v') :
    ∃ dir n, v.entry? (dir ++ [n]) = none ∧ v.canAlter dir = true ∧
      v' = v.addEntry (dir ++ [n])
        (.directory (directoryMode v.conditions.umask asked (v.modeOfDirectory dir))) ∧
      v'.Leads p (dir ++ [n]) := by
  obtain ⟨dir, n, slashed, hlocate, hshort, hnone, hmay, rfl⟩ := makeDirectory_cases h
  obtain ⟨l, hl⟩ | ⟨dir', n', hends⟩ | hstuck :=
    leads_cases (isValid_of_locate hlocate) v
  · rw [hl.makeDirectory_eq] at h
    cases h
  · obtain ⟨rfl, rfl⟩ : dir' = dir ∧ n' = n := by
      have hplace := hends.locate_eq
      rw [hlocate] at hplace
      cases hplace
      exact ⟨rfl, rfl⟩
    obtain ⟨k, hk⟩ := hends.reaches
    have hgrows := (gains_makeDirectory h).growsTo
    have hdown : Reaches _ k (dir' ++ [n']) [] k dir' [n'] :=
      .down hends.proper (hgrows.canSearch hends.search) hshort (entry?_addEntry_self hnone _) .here
    exact ⟨dir', n', hnone, hmay, rfl, hends.valid, k, (hk.mono hgrows).trans hdown⟩
  · obtain ⟨e, he⟩ := hstuck .entry
    rw [he] at hlocate
    cases hlocate

end RecordLog.Volume
