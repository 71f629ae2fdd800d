import RecordLog.Bytes.Script

/-!
# Views in lexicographic order

Views are compared in two passes: first their bytes, as far as both of them reach, and then their
sizes. The lexicographic order of byte strings needs one pass, in which the end of a string comes
before every byte. Both are the same order. It is total, a view comes before all that continue it,
and bytes that two views have in front in common do not matter. Every other way of asking how two
views compare is answered from this order, but for whether they are equal, which is told from their
bytes and comes to the same.

## Main definitions

* `RecordLog.Bytes.lexicographic`, the order of byte strings by recursion.
* `RecordLog.View.Script.Comparison.Follows`, that all ways of asking agree with an order.

## Main results

* `RecordLog.View.compare_eq_lexicographic` and `RecordLog.View.compare_eq_compare_bytes`.
* `RecordLog.View.compare_is_lexicographic`: which order it is, its laws, and the agreement of all
  ways of asking.
-/

namespace RecordLog

/-! ### The order of byte strings -/

namespace Bytes

/-- The lexicographic order: nothing comes before something; otherwise the first bytes decide, as
unsigned numbers, and what is behind them if they are the same. -/
def lexicographic : Bytes → Bytes → Ordering
  | [], [] => .eq
  | [], _ :: _ => .lt
  | _ :: _, [] => .gt
  | a :: x, b :: y =>
    if a.toNat < b.toNat then .lt
    else if b.toNat < a.toNat then .gt
    else lexicographic x y

theorem lexicographic_cons (a b : UInt8) (x y : Bytes) :
    lexicographic (a :: x) (b :: y) = (Ord.compare a b).then (lexicographic x y) := by
  rw [lexicographic]
  by_cases hab : a = b
  · subst hab
    rw [if_neg (Nat.lt_irrefl _), if_neg (Nat.lt_irrefl _), Std.ReflOrd.compare_self]
    rfl
  · rcases UInt8.lt_or_lt_of_ne hab with hlt | hgt
    · rw [if_pos (UInt8.lt_iff_toNat_lt.1 hlt), Std.compare_eq_lt.2 hlt]
      rfl
    · have hnat : b.toNat < a.toNat := UInt8.lt_iff_toNat_lt.1 hgt
      rw [if_neg (Nat.lt_asymm hnat), if_pos hnat, Std.compare_eq_gt.2 hgt]
      rfl

/-- The order of lists of bytes is this one, so that its laws are theirs. -/
theorem lexicographic_eq_compare (x y : Bytes) : lexicographic x y = Ord.compare x y := by
  induction x generalizing y with
  | nil => cases y <;> rfl
  | cons a x ih =>
      cases y with
      | nil => rfl
      | cons b y => rw [lexicographic_cons, List.compare_cons_cons, ih]

theorem lexicographic_append_left (p x y : Bytes) :
    lexicographic (p ++ x) (p ++ y) = lexicographic x y := by
  induction p with
  | nil => rfl
  | cons a p ih =>
      rw [List.cons_append, List.cons_append, lexicographic_cons, Std.ReflOrd.compare_self, ih]
      rfl

theorem lexicographic_append_of_ne_nil (x : Bytes) {p : Bytes} (hp : p ≠ []) :
    lexicographic x (x ++ p) = .lt := by
  have hnil : lexicographic (x ++ []) (x ++ p) = lexicographic [] p :=
    lexicographic_append_left x [] p
  rw [List.append_nil] at hnil
  cases p with
  | nil => exact absurd rfl hp
  | cons a p => exact hnil

end Bytes

namespace View

/-! ### Both passes as one -/

theorem firstDifference_then (x y : Bytes) :
    (firstDifference x y).then (Ord.compare x.length y.length) = Bytes.lexicographic x y := by
  induction x generalizing y with
  | nil => cases y <;> rfl
  | cons a x ih =>
      cases y with
      | nil => rfl
      | cons b y =>
          rw [Bytes.lexicographic_cons, firstDifference]
          by_cases hab : a = b
          · subst hab
            have hsize : Ord.compare (a :: x).length (a :: y).length =
                Ord.compare x.length y.length := by simp [Nat.compare_eq_ite_lt]
            rw [if_pos rfl, hsize, ih, Std.ReflOrd.compare_self]
            rfl
          · rw [if_neg hab]
            rcases UInt8.lt_or_lt_of_ne hab with hlt | hgt
            · rw [Std.compare_eq_lt.2 hlt]
              rfl
            · rw [Std.compare_eq_gt.2 hgt]
              rfl

theorem compare_eq_lexicographic (v w : View) :
    v.compare w = Bytes.lexicographic v.bytes w.bytes := firstDifference_then v.bytes w.bytes

theorem compare_eq_compare_bytes (v w : View) : Ord.compare v w = Ord.compare v.bytes w.bytes :=
  (compare_eq_lexicographic v w).trans (Bytes.lexicographic_eq_compare v.bytes w.bytes)

instance : Std.TransOrd View where
  eq_swap := by
    intro v w
    rw [compare_eq_compare_bytes, compare_eq_compare_bytes]
    exact Std.OrientedOrd.eq_swap
  isLE_trans := by
    intro u v w huv hvw
    rw [compare_eq_compare_bytes] at huv hvw ⊢
    exact Std.TransOrd.isLE_trans huv hvw

instance : Std.LawfulEqOrd View where
  compare_self := by
    intro v
    rw [compare_eq_compare_bytes]
    exact Std.ReflOrd.compare_self
  eq_of_compare := by
    intro v w h
    rw [compare_eq_compare_bytes] at h
    exact congrArg View.mk (Std.LawfulEqOrd.eq_of_compare h)

/-! ### Ways of asking -/

/-- All ways of asking how two views compare agree with an order. -/
structure Script.Comparison.Follows (c : Script.Comparison) (o : Ordering) : Prop where
  order : c.order = o
  total : c.total = o
  partially : c.partially = some o
  eq : c.eq = true ↔ o = .eq
  ne : c.ne = true ↔ o ≠ .eq
  lt : c.lt = true ↔ o = .lt
  le : c.le = true ↔ o ≠ .gt
  gt : c.gt = true ↔ o = .gt
  ge : c.ge = true ↔ o ≠ .lt

theorem compare_eq_eq_iff {v w : View} : v.compare w = .eq ↔ v.bytes = w.bytes := by
  rw [compare_eq_lexicographic, Bytes.lexicographic_eq_compare]
  exact Std.compare_eq_iff_eq

theorem follows_comparison (v w : View) : (Script.comparison v w).Follows (v.compare w) where
  order := rfl
  total := rfl
  partially := rfl
  eq := beq_iff_eq.trans compare_eq_eq_iff.symm
  ne := bne_iff_ne.trans (not_congr compare_eq_eq_iff.symm)
  lt := Ordering.isLT_iff_eq_lt
  le := Ordering.isLE_iff_ne_gt
  gt := Ordering.isGT_iff_eq_gt
  ge := Ordering.isGE_iff_ne_lt

/-- **Views are in lexicographic order.** Comparing the common part and then the sizes is the
recursion on both byte strings. Just views of the same bytes are equal in this order, asking the
other way round turns it, and it is transitive; a view comes before those that continue it, and what
two views have in front in common does not matter. All ways of asking agree with it. -/
theorem compare_is_lexicographic (a b c : View) (p : Bytes) :
    a.compare b = Bytes.lexicographic a.bytes b.bytes ∧
      (a.compare b = .eq ↔ a.bytes = b.bytes) ∧
      b.compare a = (a.compare b).swap ∧
      (a.compare b ≠ .gt → b.compare c ≠ .gt → a.compare c ≠ .gt) ∧
      (p ≠ [] → a.compare ⟨a.bytes ++ p⟩ = .lt) ∧
      compare ⟨p ++ a.bytes⟩ ⟨p ++ b.bytes⟩ = a.compare b ∧
      (Script.comparison a b).Follows (a.compare b) := by
  have hswap : Ord.compare b a = (Ord.compare a b).swap := Std.OrientedOrd.eq_swap
  refine ⟨compare_eq_lexicographic a b, compare_eq_eq_iff, hswap, ?_, ?_, ?_,
    follows_comparison a b⟩
  · intro hab hbc
    have hle : (Ord.compare a c).isLE = true :=
      Std.TransOrd.isLE_trans (Ordering.isLE_iff_ne_gt.2 hab) (Ordering.isLE_iff_ne_gt.2 hbc)
    exact Ordering.isLE_iff_ne_gt.1 hle
  · intro hp
    rw [compare_eq_lexicographic]
    exact Bytes.lexicographic_append_of_ne_nil a.bytes hp
  · rw [compare_eq_lexicographic, compare_eq_lexicographic]
    exact Bytes.lexicographic_append_left p a.bytes b.bytes

/-- Bytes from `80` on come behind those below, also where a shorter view has them. -/
theorem compare_is_lexicographic_high :
    ∃ a b c : View, a = ⟨[0x7f, 0xff]⟩ ∧ b = ⟨[0x80]⟩ ∧ c = ⟨[0x80, 0x00]⟩ ∧
      a.compare b ≠ .gt ∧ b.compare c ≠ .gt ∧ a.compare c ≠ .gt ∧
      ([0x80] : Bytes) ≠ [] ∧ a.compare ⟨a.bytes ++ [0x80]⟩ = .lt := by
  have hab : compare ⟨[0x7f, 0xff]⟩ ⟨[0x80]⟩ ≠ .gt := by decide
  have hbc : compare ⟨[0x80]⟩ ⟨[0x80, 0x00]⟩ ≠ .gt := by decide
  obtain ⟨-, -, -, htrans, hlonger, -, -⟩ :=
    compare_is_lexicographic ⟨[0x7f, 0xff]⟩ ⟨[0x80]⟩ ⟨[0x80, 0x00]⟩ [0x80]
  exact ⟨_, _, _, rfl, rfl, rfl, hab, hbc, htrans hab hbc, by decide, hlonger (by decide)⟩

end View

end RecordLog
