import InteriorPoint.Method.Start
import InteriorPoint.Proofs.Step

/-! The starting point has no negative entries: raising a vector brings its least entry above
zero, and balancing adds shares that are not negative.
-/

namespace InteriorPoint

variable {α : Type} [Field α] [LinearOrder α] [IsStrictOrderedRing α] {m n : Nat}

/-- Raising takes the least entry half its size above zero if it was negative, and nothing below
where it was.
-/
theorem shift_raise_nonneg (x : Vector α n)
    : 0 ≤ (shift x (raise x)).get := by
  intro i
  have below : least x ≤ x.get i := (least_isLeast i.pos x).2 ⟨i, rfl⟩
  have raised : -(3 / 2) * least x ≤ raise x := by
    rw [raise, firstMax_eq_max, startShift]
    exact_mod_cast le_max_left ..
  have nonneg : 0 ≤ raise x := by
    rw [raise, firstMax_eq_max]
    exact le_max_right ..
  rw [get_shift]
  change 0 ≤ x.get i + raise x
  rcases le_or_gt 0 (least x) with sign | sign
  · linarith
  · linarith

theorem total_nonneg {x : Vector α n} (hx : 0 ≤ x.get)
    : 0 ≤ total x := by
  rw [total_eq_sum]
  exact Finset.sum_nonneg fun i _ => hx i

/-- Adding a number that is not negative keeps a vector nonnegative. -/
theorem shift_nonneg {x : Vector α n} {d : α} (hx : 0 ≤ x.get) (hd : 0 ≤ d)
    : 0 ≤ (shift x d).get := by
  intro i
  rw [get_shift]
  exact add_nonneg (hx i) hd

/-- Balancing adds to each vector a share of a positive product over a sum of entries that are
not negative.
-/
theorem balance_nonneg {x s : Vector α n} (hx : 0 ≤ x.get) (hs : 0 ≤ s.get)
    : 0 ≤ (balance x s).1.get ∧ 0 ≤ (balance x s).2.get := by
  have half : (0 : α) ≤ startBalance := by
    unfold startBalance
    positivity
  simp only [balance]
  split
  · next positive =>
      have share {v : Vector α n} (hv : 0 ≤ v.get) : 0 ≤ startBalance * dot x s / total v :=
        div_nonneg (mul_nonneg half positive.le) (total_nonneg hv)
      exact ⟨shift_nonneg hx (share hs), shift_nonneg hs (share hx)⟩
  · exact ⟨hx, hs⟩

/-- Whenever there is a starting point, its variables and slacks are not negative. -/
theorem LinearProgram.startingPoint_isNonnegative {p : LinearProgram α m n} {y : Blocks α m n}
    (h : p.startingPoint = .ok y)
    : y.IsNonnegative := by
  unfold startingPoint at h
  split at h
  · simp at h
  · next point _ =>
      obtain rfl := Except.ok.inj h
      obtain ⟨x, s⟩ := balance_nonneg (shift_raise_nonneg point.x) (shift_raise_nonneg point.s)
      exact ⟨x, s⟩

end InteriorPoint
