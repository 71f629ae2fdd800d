import Mathlib.Data.List.Destutter
import RecordLog.Proofs.Bytes.Order

/-!
# Collections of views

A collection of views can be sorted, put into a set that keeps its members in order, counted without
repetitions, and asked for its least and its greatest view. Sorting and the ends go by the order of
views alone. The ordered set leaves out what is equal in the order, and counting leaves out what
shows the same bytes. A set by hash looks for a view only among those of the same hash, which is
made of what a view hands to a hasher.

All of these agree, because views are equal in the order just if they show the same bytes, and hand
over the same to a hasher if they do. What comes out is determined by the members of the collection,
or by how often each of them occurs, so that the order in which the collection is given does not
matter.

## Main definitions

* `RecordLog.View.IsIncreasing`, lists in which each view comes before those behind it.
* `RecordLog.View.best`, the end of a search that goes over to every better view.
* `RecordLog.View.hashed` and `RecordLog.View.hashSet`, what a view hands to a hasher and the set of
  a collection by hash.

## Main results

* `RecordLog.View.IsIncreasing.eq_of_mem_iff`: an increasing list is determined by its members.
* `RecordLog.View.ordered_eq_destutter_sorted` and `RecordLog.View.hashSet_perm_ordered`.
* `RecordLog.View.least_eq_head?_sorted` and `RecordLog.View.greatest_eq_getLast?_sorted`.
* `RecordLog.View.arrangements_agree`.
-/

namespace RecordLog.View

open Std

instance : TransCmp compare := inferInstanceAs (TransOrd View)

instance : LawfulEqCmp compare := inferInstanceAs (LawfulEqOrd View)

/-! ### Sorted lists -/

theorem compare_swap (v w : View) : w.compare v = (v.compare w).swap := OrientedCmp.eq_swap

theorem compare_ne_gt_trans {u v w : View} (huv : u.compare v ≠ .gt) (hvw : v.compare w ≠ .gt) :
    u.compare w ≠ .gt :=
  Ordering.isLE_iff_ne_gt.1
    (TransCmp.isLE_trans (Ordering.isLE_iff_ne_gt.2 huv) (Ordering.isLE_iff_ne_gt.2 hvw))

theorem compare_antisymm {v w : View} (hvw : v.compare w ≠ .gt) (hwv : w.compare v ≠ .gt) :
    v = w := by
  cases h : v.compare w with
  | eq => exact LawfulEqCmp.eq_of_compare h
  | lt => exact absurd (OrientedCmp.gt_of_lt h) hwv
  | gt => exact absurd h hvw

theorem compare_eq_lt_of_ne {v w : View} (hle : v.compare w ≠ .gt) (hne : v ≠ w) :
    v.compare w = .lt := by
  cases h : v.compare w with
  | eq => exact absurd (LawfulEqCmp.eq_of_compare h) hne
  | lt => rfl
  | gt => exact absurd h hle

theorem sorted_perm (vs : List View) : (sorted vs).Perm vs := List.mergeSort_perm vs _

theorem pairwise_sorted (vs : List View) :
    (sorted vs).Pairwise fun v w => v.compare w ≠ .gt := by
  have htotal (v w : View) : ((v.compare w).isLE || (w.compare v).isLE) = true := by
    rw [compare_swap v w]
    cases v.compare w <;> rfl
  have hsorted : (sorted vs).Pairwise fun v w => (v.compare w).isLE = true :=
    List.pairwise_mergeSort (fun _ _ _ => TransCmp.isLE_trans) htotal vs
  exact hsorted.imp Ordering.isLE_iff_ne_gt.1

/-- How often each view occurs determines the sorted list. -/
theorem sorted_eq_of_perm {vs ws : List View} (h : ws.Perm vs) : sorted ws = sorted vs := by
  have hperm : (sorted ws).Perm (sorted vs) :=
    ((sorted_perm ws).trans h).trans (sorted_perm vs).symm
  exact hperm.eq_of_pairwise (fun _ _ _ _ => compare_antisymm) (pairwise_sorted ws)
    (pairwise_sorted vs)

/-! ### Increasing lists -/

/-- In an increasing list each view comes before those behind it. -/
def IsIncreasing (vs : List View) : Prop := vs.Pairwise fun v w => v.compare w = .lt

namespace IsIncreasing

variable {vs ws : List View}

theorem nodup (h : IsIncreasing vs) : vs.Nodup := by
  refine List.Pairwise.imp (fun {v w} hlt heq => ?_) h
  rw [heq, compare_eq_eq_iff.2 rfl] at hlt
  cases hlt

/-- **An increasing list is determined by its members.** -/
theorem eq_of_mem_iff (hv : IsIncreasing vs) (hw : IsIncreasing ws) (h : ∀ v, v ∈ vs ↔ v ∈ ws) :
    vs = ws := by
  have hperm : vs.Perm ws := (List.perm_ext_iff_of_nodup hv.nodup hw.nodup).2 h
  refine hperm.eq_of_pairwise (fun v w _ _ hvw hwv => ?_) hv hw
  exact absurd hwv (OrientedCmp.not_lt_of_lt hvw)

end IsIncreasing

theorem mem_insertOrdered {u v : View} {ws : List View} :
    u ∈ insertOrdered v ws ↔ u = v ∨ u ∈ ws := by
  induction ws with
  | nil => simp [insertOrdered]
  | cons w ws ih =>
      rw [insertOrdered]
      split
      · exact List.mem_cons
      · rename_i heq
        have hvw : v = w := LawfulEqCmp.eq_of_compare heq
        simp [hvw]
      · rw [List.mem_cons, ih, List.mem_cons]
        exact or_left_comm

theorem isIncreasing_insertOrdered {ws : List View} (h : IsIncreasing ws) (v : View) :
    IsIncreasing (insertOrdered v ws) := by
  induction ws with
  | nil => exact List.pairwise_singleton _ v
  | cons w ws ih =>
      obtain ⟨hw, hws⟩ := List.pairwise_cons.1 h
      rw [insertOrdered]
      split
      · rename_i hlt
        refine List.pairwise_cons.2 ⟨fun u hu => ?_, h⟩
        rcases List.mem_cons.1 hu with rfl | hu
        · exact hlt
        · exact TransCmp.lt_trans hlt (hw u hu)
      · exact h
      · rename_i hgt
        refine List.pairwise_cons.2 ⟨fun u hu => ?_, ih hws⟩
        rcases mem_insertOrdered.1 hu with rfl | hu
        · exact OrientedCmp.gt_iff_lt.1 hgt
        · exact hw u hu

theorem mem_ordered {u : View} {vs : List View} : u ∈ ordered vs ↔ u ∈ vs := by
  induction vs with
  | nil => exact Iff.rfl
  | cons v vs ih => exact mem_insertOrdered.trans ((or_congr_right ih).trans List.mem_cons.symm)

theorem isIncreasing_ordered (vs : List View) : IsIncreasing (ordered vs) := by
  induction vs with
  | nil => exact List.Pairwise.nil
  | cons v vs ih => exact isIncreasing_insertOrdered ih v

/-- The members determine the ordered set. -/
theorem ordered_eq_of_mem_iff {vs ws : List View} (h : ∀ v, v ∈ ws ↔ v ∈ vs) :
    ordered ws = ordered vs :=
  (isIncreasing_ordered ws).eq_of_mem_iff (isIncreasing_ordered vs)
    fun v => mem_ordered.trans ((h v).trans mem_ordered.symm)

/-! ### Adjacent repetitions -/

/-- Without adjacent repetitions a list has the same members. -/
theorem mem_destutter'_ne {u v : View} {vs : List View} :
    u ∈ vs.destutter' (· ≠ ·) v ↔ u = v ∨ u ∈ vs := by
  induction vs generalizing v with
  | nil => simp
  | cons w vs ih =>
      by_cases h : v = w
      · subst h
        rw [List.destutter'_cons_neg _ (not_not.2 rfl), ih]
        simp
      · rw [List.destutter'_cons_pos _ h, List.mem_cons, ih, List.mem_cons]

theorem mem_destutter_ne {u : View} {vs : List View} : u ∈ vs.destutter (· ≠ ·) ↔ u ∈ vs := by
  cases vs with
  | nil => exact Iff.rfl
  | cons v vs => exact mem_destutter'_ne.trans List.mem_cons.symm

/-- Without adjacent repetitions a sorted list is increasing. -/
theorem isIncreasing_destutter'_ne {v : View} {vs : List View}
    (h : (v :: vs).Pairwise fun v w => v.compare w ≠ .gt) :
    IsIncreasing (vs.destutter' (· ≠ ·) v) := by
  induction vs generalizing v with
  | nil => exact List.pairwise_singleton _ v
  | cons w vs ih =>
      obtain ⟨hv, hvs⟩ := List.pairwise_cons.1 h
      obtain ⟨hw, -⟩ := List.pairwise_cons.1 hvs
      by_cases hvw : v = w
      · rw [List.destutter'_cons_neg _ (not_not.2 hvw), hvw]
        exact ih hvs
      · rw [List.destutter'_cons_pos _ hvw]
        have hlt : v.compare w = .lt := compare_eq_lt_of_ne (hv w List.mem_cons_self) hvw
        refine List.pairwise_cons.2 ⟨fun u hu => ?_, ih hvs⟩
        rcases mem_destutter'_ne.1 hu with rfl | hu
        · exact hlt
        · exact TransCmp.lt_of_lt_of_isLE hlt (Ordering.isLE_iff_ne_gt.2 (hw u hu))

/-- **The ordered set is the sorted list** without adjacent repetitions. -/
theorem ordered_eq_destutter_sorted (vs : List View) :
    ordered vs = (sorted vs).destutter (· ≠ ·) := by
  have hincreasing : IsIncreasing ((sorted vs).destutter (· ≠ ·)) := by
    cases hsorted : sorted vs with
    | nil => exact List.Pairwise.nil
    | cons v ws => exact isIncreasing_destutter'_ne (hsorted ▸ pairwise_sorted vs)
  refine (isIncreasing_ordered vs).eq_of_mem_iff hincreasing fun v => ?_
  rw [mem_ordered, mem_destutter_ne, (sorted_perm vs).mem_iff]

/-! ### Sets by hash -/

/-- What a view hands to a hasher: how many bytes it shows, and these. -/
def hashed (v : View) : Nat × Bytes := (v.size, v.bytes)

/-- A view put into a set by hash, unless one of those with the same hash shows the same bytes. -/
def insertHashed (hash : Nat × Bytes → UInt64) (set : List View) (v : View) : List View :=
  if set.any fun w => hash w.hashed == hash v.hashed && w.bytes == v.bytes then set else v :: set

/-- The set of a collection by hash. -/
def hashSet (hash : Nat × Bytes → UInt64) (vs : List View) : List View :=
  vs.foldl (insertHashed hash) []

section HashSet

variable (hash : Nat × Bytes → UInt64)

/-- Among the views with the same hash are all that show the same bytes. -/
theorem insertHashed_eq_insert (set : List View) (v : View) :
    insertHashed hash set v = set.insert v := by
  have hfound : (set.any fun w => hash w.hashed == hash v.hashed && w.bytes == v.bytes) = true ↔
      v ∈ set := by
    rw [List.any_eq_true]
    constructor
    · rintro ⟨w, hw, hsame⟩
      have hbytes : w.bytes = v.bytes := beq_iff_eq.1 (Bool.and_eq_true_iff.1 hsame).2
      rwa [← compare_eq_eq_iff.2 hbytes |> LawfulEqCmp.eq_of_compare]
    · intro hv
      exact ⟨v, hv, by rw [beq_self_eq_true, beq_self_eq_true, Bool.and_self]⟩
  rw [insertHashed, List.insert_eq]
  simp only [hfound]

theorem mem_foldl_insertHashed {u : View} (set vs : List View) :
    u ∈ vs.foldl (insertHashed hash) set ↔ u ∈ set ∨ u ∈ vs := by
  induction vs generalizing set with
  | nil => simp
  | cons v vs ih =>
      rw [List.foldl_cons, ih, insertHashed_eq_insert, List.mem_insert_iff, List.mem_cons]
      exact or_assoc.trans or_left_comm

theorem nodup_foldl_insertHashed {set : List View} (h : set.Nodup) (vs : List View) :
    (vs.foldl (insertHashed hash) set).Nodup := by
  induction vs generalizing set with
  | nil => exact h
  | cons v vs ih =>
      rw [List.foldl_cons, insertHashed_eq_insert]
      exact ih (List.Nodup.insert h)

/-- **The set by hash has the members of the ordered set**, whatever the hash. -/
theorem hashSet_perm_ordered (vs : List View) : (hashSet hash vs).Perm (ordered vs) := by
  have hnodup : (hashSet hash vs).Nodup := nodup_foldl_insertHashed hash List.nodup_nil vs
  refine (List.perm_ext_iff_of_nodup hnodup (isIncreasing_ordered vs).nodup).2 fun v => ?_
  rw [hashSet, mem_foldl_insertHashed, mem_ordered, List.mem_nil_iff, false_or]

end HashSet

/-! ### Counting -/

theorem nodup_eraseDups {α : Type} [BEq α] [LawfulBEq α] : (xs : List α) → xs.eraseDups.Nodup
  | [] => List.nodup_nil
  | x :: xs => by
      have hrest := nodup_eraseDups (xs.filter fun y => !y == x)
      rw [List.eraseDups_cons]
      refine List.nodup_cons.2 ⟨fun hx => ?_, hrest⟩
      have hkept := (List.mem_filter.1 (List.mem_eraseDups.1 hx)).2
      rw [beq_self_eq_true] at hkept
      cases hkept
termination_by xs => xs.length
decreasing_by exact Nat.lt_succ_of_le (List.length_filter_le _ _)

theorem distinct_eq_length_ordered (vs : List View) : distinct vs = (ordered vs).length := by
  have hperm : vs.eraseDups.Perm (ordered vs) := by
    refine (List.perm_ext_iff_of_nodup (nodup_eraseDups vs)
      (isIncreasing_ordered vs).nodup).2 fun v => ?_
    rw [List.mem_eraseDups, mem_ordered]
  exact hperm.length_eq

/-! ### The ends -/

/-- The view that a search ends with that starts from one and goes over to every better view. -/
def best (better : View → View → Bool) (v : View) (vs : List View) : View :=
  vs.foldl (fun u w => if better w u then w else u) v

/-- Of two views at most one is better than the other, and what is not better than a view is not
better than one that this view is not better than. -/
structure IsStrict (better : View → View → Bool) : Prop where
  asymm {v w : View} : better v w = true → better w v = false
  trans {u v w : View} : better u v = false → better v w = false → better u w = false

section Best

variable {better : View → View → Bool}

theorem best_mem (v : View) (vs : List View) : best better v vs ∈ v :: vs := by
  induction vs generalizing v with
  | nil => exact List.mem_singleton_self v
  | cons w vs ih =>
      rw [best, List.foldl_cons]
      split
      · exact List.mem_cons_of_mem v (ih w)
      · rcases List.mem_cons.1 (ih v) with hv | hvs
        · exact List.mem_cons.2 (.inl hv)
        · exact List.mem_cons_of_mem v (List.mem_cons_of_mem w hvs)

/-- No view that a search has seen is better than the one that it ends with. -/
theorem IsStrict.not_better_best (h : IsStrict better) (v : View) (vs : List View) :
    ∀ w ∈ v :: vs, better w (best better v vs) = false := by
  induction vs generalizing v with
  | nil =>
      intro w hw
      rw [List.mem_singleton.1 hw]
      exact Bool.of_not_eq_true fun hself => Bool.noConfusion (hself.symm.trans (h.asymm hself))
  | cons x vs ih =>
      intro w hw
      rw [best, List.foldl_cons]
      split
      · -- The search has left its start behind, which is not better than where it goes over to.
        rename_i hx
        rcases List.mem_cons.1 hw with rfl | hw
        · exact h.trans (h.asymm hx) (ih x x List.mem_cons_self)
        · exact ih x w hw
      · rename_i hx
        have hstart : better v (best better v vs) = false := ih v v List.mem_cons_self
        rcases List.mem_cons.1 hw with rfl | hw
        · exact hstart
        · rcases List.mem_cons.1 hw with rfl | hw
          · exact h.trans (Bool.of_not_eq_true hx) hstart
          · exact ih v w (List.mem_cons_of_mem v hw)

/-- A search among the members of a list ends with the first of them, if the list is in an order in
which what comes before another view is better than it or the same. -/
theorem IsStrict.head?_eq_best (h : IsStrict better) {r : View → View → Prop} {ws vs : List View}
    {v : View} (hsorted : ws.Pairwise r) (hmem : ∀ w, w ∈ ws ↔ w ∈ v :: vs)
    (hsame : ∀ u w, r u w → better u w = false → u = w) : ws.head? = some (best better v vs) := by
  have hbest : best better v vs ∈ ws := (hmem _).2 (best_mem v vs)
  cases ws with
  | nil => cases hbest
  | cons w ws =>
      rcases List.mem_cons.1 hbest with hfirst | hbehind
      · rw [List.head?_cons, hfirst]
      · have hnot := h.not_better_best v vs w ((hmem w).1 List.mem_cons_self)
        rw [List.head?_cons, hsame w _ (List.rel_of_pairwise_cons hsorted hbehind) hnot]

end Best

theorem compare_isLT_eq_false_iff {v w : View} :
    (v.compare w).isLT = false ↔ w.compare v ≠ .gt := by
  rw [compare_swap v w]
  cases v.compare w <;> decide

theorem compare_isGT_eq_false_iff {v w : View} :
    (v.compare w).isGT = false ↔ v.compare w ≠ .gt := by
  cases v.compare w <;> decide

theorem isStrict_isLT : IsStrict fun v w => (v.compare w).isLT where
  asymm h := compare_isLT_eq_false_iff.2 (by rw [Ordering.isLT_iff_eq_lt.1 h]; decide)
  trans huv hvw := compare_isLT_eq_false_iff.2 (compare_ne_gt_trans
    (compare_isLT_eq_false_iff.1 hvw) (compare_isLT_eq_false_iff.1 huv))

theorem isStrict_isGT : IsStrict fun v w => (v.compare w).isGT where
  asymm h := compare_isGT_eq_false_iff.2
    (by rw [OrientedCmp.gt_iff_lt.1 (Ordering.isGT_iff_eq_gt.1 h)]; decide)
  trans huv hvw := compare_isGT_eq_false_iff.2 (compare_ne_gt_trans
    (compare_isGT_eq_false_iff.1 huv) (compare_isGT_eq_false_iff.1 hvw))

/-- **The least view is the first of the sorted list.** -/
theorem least_eq_head?_sorted (vs : List View) : least vs = (sorted vs).head? := by
  cases vs with
  | nil => rw [sorted, List.mergeSort_nil]; rfl
  | cons v vs =>
      exact (isStrict_isLT.head?_eq_best (pairwise_sorted (v :: vs))
        (fun w => (sorted_perm (v :: vs)).mem_iff)
        fun u w hle hnot => compare_antisymm hle (compare_isLT_eq_false_iff.1 hnot)).symm

/-- **The greatest view is the last of the sorted list**, which is the first of that turned
round. -/
theorem greatest_eq_getLast?_sorted (vs : List View) : greatest vs = (sorted vs).getLast? := by
  cases vs with
  | nil => rw [sorted, List.mergeSort_nil]; rfl
  | cons v vs =>
      rw [← List.head?_reverse]
      exact (isStrict_isGT.head?_eq_best (List.pairwise_reverse.2 (pairwise_sorted (v :: vs)))
        (fun w => List.mem_reverse.trans (sorted_perm (v :: vs)).mem_iff)
        fun u w hge hnot => compare_antisymm (compare_isGT_eq_false_iff.1 hnot) hge).symm

theorem least_eq_none_iff {vs : List View} : least vs = none ↔ vs = [] := by
  cases vs <;> simp [least]

theorem greatest_eq_none_iff {vs : List View} : greatest vs = none ↔ vs = [] := by
  cases vs <;> simp [greatest]

/-! ### Agreement -/

/-- **All arrangements of a collection agree.** Sorting keeps each view as often as it occurs, and
none comes before a lesser one. The ordered set is the sorted list without adjacent repetitions: it
has the same members, each before all greater ones. Counting without repetitions comes to its size,
and so does the set by hash, whatever the hash. The least and the greatest view are the ends of the
sorted list, and missing just if there is no view. Given in another order, the collection is sorted,
put into a set and counted in the same way, and has the same ends. -/
theorem arrangements_agree (vs : List View) :
    ((sorted vs).Perm vs ∧ (sorted vs).Pairwise fun v w => v.compare w ≠ .gt) ∧
      ((ordered vs).Pairwise (fun v w => v.compare w = .lt) ∧ (∀ v, v ∈ ordered vs ↔ v ∈ vs) ∧
        ordered vs = (sorted vs).destutter (· ≠ ·)) ∧
      (distinct vs = (ordered vs).length ∧ ∀ hash, (hashSet hash vs).Perm (ordered vs)) ∧
      (least vs = (sorted vs).head? ∧ greatest vs = (sorted vs).getLast? ∧
        (least vs = none ↔ vs = []) ∧ (greatest vs = none ↔ vs = [])) ∧
      ∀ ws : List View, ws.Perm vs →
        sorted ws = sorted vs ∧ ordered ws = ordered vs ∧ distinct ws = distinct vs ∧
          least ws = least vs ∧ greatest ws = greatest vs := by
  refine ⟨⟨sorted_perm vs, pairwise_sorted vs⟩,
    ⟨isIncreasing_ordered vs, fun v => mem_ordered, ordered_eq_destutter_sorted vs⟩,
    ⟨distinct_eq_length_ordered vs, fun hash => hashSet_perm_ordered hash vs⟩,
    ⟨least_eq_head?_sorted vs, greatest_eq_getLast?_sorted vs, least_eq_none_iff,
      greatest_eq_none_iff⟩, fun ws h => ?_⟩
  have hsorted : sorted ws = sorted vs := sorted_eq_of_perm h
  have hordered : ordered ws = ordered vs := ordered_eq_of_mem_iff fun v => h.mem_iff
  refine ⟨hsorted, hordered, ?_, ?_, ?_⟩
  · rw [distinct_eq_length_ordered, distinct_eq_length_ordered, hordered]
  · rw [least_eq_head?_sorted, least_eq_head?_sorted, hsorted]
  · rw [greatest_eq_getLast?_sorted, greatest_eq_getLast?_sorted, hsorted]

/-- A byte from `80` on comes last although it is given first, and is counted once. -/
theorem arrangements_agree_repeated :
    ∃ vs ws : List View, vs = [⟨[0x80]⟩, ⟨[0x7f, 0xff]⟩, ⟨[]⟩, ⟨[0x80]⟩] ∧
      ws = [⟨[]⟩, ⟨[0x80]⟩, ⟨[0x80]⟩, ⟨[0x7f, 0xff]⟩] ∧ ws.Perm vs ∧ sorted ws = sorted vs ∧
      ordered ws = [⟨[]⟩, ⟨[0x7f, 0xff]⟩, ⟨[0x80]⟩] ∧ distinct vs = 3 ∧
      least ws = some ⟨[]⟩ ∧ greatest ws = some ⟨[0x80]⟩ := by
  obtain ⟨-, -, ⟨hdistinct, -⟩, -, hperm⟩ :=
    arrangements_agree [⟨[0x80]⟩, ⟨[0x7f, 0xff]⟩, ⟨[]⟩, ⟨[0x80]⟩]
  have h : List.Perm [⟨[]⟩, ⟨[0x80]⟩, ⟨[0x80]⟩, ⟨[0x7f, 0xff]⟩]
      ([⟨[0x80]⟩, ⟨[0x7f, 0xff]⟩, ⟨[]⟩, ⟨[0x80]⟩] : List View) := by decide
  obtain ⟨hsorted, hordered, -, hleast, hgreatest⟩ := hperm _ h
  exact ⟨_, _, rfl, rfl, h, hsorted, hordered.trans (by decide), hdistinct.trans (by decide),
    hleast.trans (by decide), hgreatest.trans (by decide)⟩

end RecordLog.View
