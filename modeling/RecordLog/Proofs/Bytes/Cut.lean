import RecordLog.Bytes.Basic
import Mathlib.Order.Bounds.Defs

/-!
# Cuts through a row of codes

Things are coded one after the other, and of the bytes only the first few are there. Some of the
things are there in whole; then the bytes end, either behind the last code or short of the end of
the next one.

## Main definitions

* `RecordLog.Bytes.IsWhole code xs n k`: of the things `xs`, the first `k` fit in `n` bytes, and no
  more of them do.

## Main results

* `RecordLog.Bytes.exists_cut`: where a byte string ends that a row of codes starts with.
-/

namespace RecordLog.Bytes

variable {α : Type} {code : α → Bytes}

/-- `k` is the greatest number such that the codes of the first `k` of `xs` fit in `n` bytes. -/
def IsWhole (code : α → Bytes) (xs : List α) (n k : Nat) : Prop :=
  IsGreatest {j | j ≤ xs.length ∧ ((xs.take j).flatMap code).length ≤ n} k

theorem length_flatMap_take_le (code : α → Bytes) (xs : List α) {i j : Nat} (h : i ≤ j) :
    ((xs.take i).flatMap code).length ≤ ((xs.take j).flatMap code).length := by
  obtain ⟨t, ht⟩ := List.take_prefix_take_left (l := xs) h
  rw [← ht, List.flatMap_append, List.length_append]
  exact Nat.le_add_right _ _

theorem isWhole_length {xs : List α} {n : Nat} (h : (xs.flatMap code).length ≤ n) :
    IsWhole code xs n xs.length :=
  ⟨⟨Nat.le_refl _, by rwa [List.take_length]⟩, fun _ hj => hj.1⟩

/-- Only so many fit if the next one does not. -/
theorem isWhole_of_lt {before more : List α} {x : α} {n : Nat}
    (hfit : (before.flatMap code).length ≤ n)
    (hnext : n < (before.flatMap code).length + (code x).length) :
    IsWhole code (before ++ x :: more) n before.length := by
  refine ⟨⟨by simp, by rwa [List.take_left]⟩, fun j hj => Nat.le_of_not_lt fun hlt => ?_⟩
  have hone : (before ++ x :: more).take (before.length + 1) = before ++ [x] := by
    rw [List.take_length_add_append]
    rfl
  have hmono := length_flatMap_take_le code (before ++ x :: more) (Nat.succ_le_of_lt hlt)
  rw [Nat.succ_eq_add_one, hone, List.flatMap_append, List.length_append,
    List.flatMap_singleton] at hmono
  have := hj.2
  omega

/-- How the bytes after the last whole code come to an end: there is no further thing and no byte,
or there is a next thing, of whose code they are the first few. -/
def EndsShort (code : α → Bytes) (after : List α) (rest : Bytes) : Prop :=
  match after with
  | [] => rest = []
  | x :: _ => ∃ j, j < (code x).length ∧ rest = (code x).take j

/-- **Every cut leaves some codes whole and at most one in part.** -/
theorem exists_cut (code : α → Bytes) (xs : List α) {p : Bytes} (h : p <+: xs.flatMap code) :
    ∃ before after rest, xs = before ++ after ∧ p = before.flatMap code ++ rest ∧
      EndsShort code after rest := by
  induction xs generalizing p with
  | nil => exact ⟨[], [], [], rfl, List.prefix_nil.1 h, rfl⟩
  | cons x xs ih =>
      rw [List.flatMap_cons] at h
      rcases Nat.lt_or_ge p.length (code x).length with hlt | hle
      · have hp : p = (code x).take p.length := by
          rw [List.prefix_iff_eq_take.1 h, List.length_take, List.length_append,
            Nat.min_eq_left (by omega), List.take_append_of_le_length (by omega)]
        exact ⟨[], x :: xs, p, rfl, rfl, p.length, hlt, hp⟩
      · obtain ⟨q, rfl⟩ := List.prefix_of_prefix_length_le (List.prefix_append _ _) h hle
        obtain ⟨before, after, rest, rfl, rfl, hend⟩ :=
          ih ((List.prefix_append_right_inj _).1 h)
        exact ⟨x :: before, after, rest, rfl, by simp, hend⟩

/-- What is whole before a cut is as much as fits. -/
theorem isWhole_of_endsShort (before : List α) {after : List α} {rest : Bytes}
    (h : EndsShort code after rest) :
    IsWhole code (before ++ after) (before.flatMap code ++ rest).length before.length := by
  cases after with
  | nil =>
      rw [EndsShort] at h
      rw [h, List.append_nil, List.append_nil]
      exact isWhole_length (Nat.le_refl _)
  | cons x more =>
      obtain ⟨j, hj, rfl⟩ := h
      apply isWhole_of_lt
      · rw [List.length_append]
        exact Nat.le_add_right _ _
      · rw [List.length_append, List.length_take]
        omega

end RecordLog.Bytes
