import RecordLog.Bytes.View

/-!
# The order of views

Views are compared by their bytes as unsigned numbers: at the first position where two views
differ the lesser byte decides, and a view that another one continues comes before it. The order
sorts collections of views and finds their distinct members.

## Main definitions

* `RecordLog.View.compare`, with the instances `Ord`, `LT` and `LE` that it gives, and
  `RecordLog.View.partialCompare`.
* `RecordLog.View.sorted`, `RecordLog.View.ordered`, `RecordLog.View.least`,
  `RecordLog.View.greatest` — a collection in order, its distinct members in order, and the ends.
-/

namespace RecordLog.View

/-- How the bytes of two byte strings compare at the first position where they differ, as far as
both of them reach. -/
def firstDifference : Bytes → Bytes → Ordering
  | a :: as, b :: bs => if a = b then firstDifference as bs else Ord.compare a b
  | _, _ => .eq

/-- The order of views: the first difference decides, and without one the size. -/
def compare (v w : View) : Ordering :=
  (firstDifference v.bytes w.bytes).then (Ord.compare v.size w.size)

instance : Ord View := ⟨compare⟩

/-- The order of views as one that may leave two of them uncompared. It leaves none. -/
def partialCompare (v w : View) : Option Ordering := some (Ord.compare v w)

instance : LT View := ltOfOrd

instance : LE View := leOfOrd

/-- The views of a collection in order, equal ones side by side. -/
def sorted (vs : List View) : List View := vs.mergeSort fun v w => (compare v w).isLE

/-- A view put in its place in an ordered list, unless the list has it. -/
def insertOrdered (v : View) : List View → List View
  | [] => [v]
  | w :: ws =>
    match compare v w with
    | .lt => v :: w :: ws
    | .eq => w :: ws
    | .gt => w :: insertOrdered v ws

/-- The distinct views of a collection, in order. -/
def ordered (vs : List View) : List View := vs.foldr insertOrdered []

/-- Number of distinct views of a collection. -/
def distinct (vs : List View) : Nat := vs.eraseDups.length

/-- The least view of a collection. -/
def least : List View → Option View
  | [] => none
  | v :: vs => some (vs.foldl (fun u w => if (compare w u).isLT then w else u) v)

/-- The greatest view of a collection. -/
def greatest : List View → Option View
  | [] => none
  | v :: vs => some (vs.foldl (fun u w => if (compare w u).isGT then w else u) v)

end RecordLog.View
