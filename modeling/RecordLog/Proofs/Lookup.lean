import Mathlib.Data.List.Basic

/-!
# Lists of keys and values

What is found under a key in a list is the first value there. These are the cases that lists of
writers under their handles and of entries at their locations have in common.

## Main results

* `RecordLog.mem_of_lookup`.
* `RecordLog.lookup_filter_self` and `RecordLog.lookup_filter_of_ne`, where a key is left out.
* `RecordLog.lookup_map_replace`, where the value under a key is another one.
-/

namespace RecordLog

variable {α β : Type} [BEq α] [LawfulBEq α] {k k' : α} {x : β} {l : List (α × β)}

theorem mem_of_lookup (h : l.lookup k = some x) : (k, x) ∈ l := by
  obtain ⟨before, behind, rfl, -⟩ := List.lookup_eq_some_iff.1 h
  exact List.mem_append_right _ List.mem_cons_self

variable [DecidableEq α]

theorem lookup_filter_self (k : α) (l : List (α × β)) : (l.filter (·.1 ≠ k)).lookup k = none := by
  rw [List.lookup_eq_none_iff]
  intro y hy
  have hne : y.1 ≠ k := of_decide_eq_true (List.mem_filter.1 hy).2
  exact bne_iff_ne.2 hne.symm

theorem lookup_filter_of_ne (h : k' ≠ k) (l : List (α × β)) :
    (l.filter (·.1 ≠ k)).lookup k' = l.lookup k' := by
  induction l with
  | nil => rfl
  | cons y rest ih =>
      obtain ⟨j, y⟩ := y
      by_cases hj : j = k
      · have hfilter : ((j, y) :: rest).filter (·.1 ≠ k) = rest.filter (·.1 ≠ k) := by simp [hj]
        rw [hfilter, ih, List.lookup_cons, beq_eq_false_iff_ne.2 (hj ▸ h)]
      · have hfilter : ((j, y) :: rest).filter (·.1 ≠ k) = (j, y) :: rest.filter (·.1 ≠ k) := by
          simp [hj]
        rw [hfilter, List.lookup_cons, List.lookup_cons, ih]

theorem lookup_map_replace (k : α) (x : β) (l : List (α × β)) (k' : α) :
    (l.map fun y => if y.1 = k then (k, x) else y).lookup k' =
      if k' = k then (l.lookup k').map fun _ => x else l.lookup k' := by
  induction l with
  | nil => simp
  | cons y rest ih =>
      obtain ⟨j, y⟩ := y
      rw [List.map_cons]
      by_cases hj : j = k
      · rw [if_pos hj, List.lookup_cons, List.lookup_cons, ih, hj]
        by_cases hk : k' = k
        · simp [hk]
        · rw [beq_eq_false_iff_ne.2 hk]
      · rw [if_neg hj, List.lookup_cons, List.lookup_cons, ih]
        by_cases hk : k' = j
        · simp [hk, hj]
        · rw [beq_eq_false_iff_ne.2 hk]

end RecordLog
