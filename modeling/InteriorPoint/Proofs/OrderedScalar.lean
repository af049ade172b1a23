import Mathlib
import InteriorPoint.Scalar

/-! Scalars of an ordered field. No value is undefined or infinite there, so the guarded
comparisons of the algorithms are the ones of the order.
-/

namespace InteriorPoint

section Order

variable {α : Type} [LinearOrder α]

@[simp]
theorem isUndefined_eq_false (x : α)
    : isUndefined x = false := by
  simp [isUndefined]

/-- Keeping the earlier of two equal values does not matter in a linear order. -/
@[simp]
theorem firstMax_eq_max (x y : α)
    : firstMax x y = max x y := by
  unfold firstMax
  split
  · next h => exact (max_eq_right h.le).symm
  · next h => exact (max_eq_left (not_lt.mp h)).symm

@[simp]
theorem firstMin_eq_min (x y : α)
    : firstMin x y = min x y := by
  unfold firstMin
  split
  · next h => exact (min_eq_right h.le).symm
  · next h => exact (min_eq_left (not_lt.mp h)).symm

/-- Without undefined values the greater value is the maximum. -/
theorem greater_eq_max
    : (greater : α → α → α) = max := by
  funext x y
  simp [greater]

theorem lesser_eq_min
    : (lesser : α → α → α) = min := by
  funext x y
  simp [lesser]

end Order

/-- A field need not have square roots, so there a number is split into itself and one. -/
instance (priority := low) pivotSplitField {α : Type} [Field α] : PivotSplit α :=
  ⟨fun x => x, fun _ => 1⟩

section Field

variable {α : Type} [Field α] [LinearOrder α] [IsStrictOrderedRing α]

omit [IsStrictOrderedRing α] in
@[simp]
theorem isFinite_eq_true (x : α)
    : isFinite x = true := by
  simp [isFinite]

@[simp]
theorem magnitude_eq_abs (x : α)
    : magnitude x = |x| := by
  unfold magnitude
  split
  · next h => exact (abs_of_neg h).symm
  · next h => exact (abs_of_nonneg (not_lt.mp h)).symm

omit [LinearOrder α] [IsStrictOrderedRing α] in
/-- Repeated multiplication is the power, by induction on the exponent. -/
@[simp]
theorem power_eq_pow (x : α) (k : Nat)
    : power x k = x ^ k := by
  induction k with
  | zero => simp [power]
  | succ k ih => rw [power, ih, pow_succ]

end Field

end InteriorPoint
