import InteriorPoint.Method.Start
import InteriorPoint.Proofs.RatioTest

/-! Vectors in another order and another unit. What the method reads of its vectors follows along:
sums and extremes change by the unit and know no order, shifts and moves are taken to shifts and
moves, and a ratio test of two vectors in one unit does not change at all.
-/

namespace InteriorPoint

variable {α : Type} [Field α] {n : Nat}

/-- The entries in another order and in another unit. -/
def relabel (order : Equiv.Perm (Fin n)) (unit : α) (v : Vector α n) : Vector α n :=
  Vector.ofFn fun i => unit * v.get (order i)

variable (order : Equiv.Perm (Fin n)) (unit other : α)

theorem get_relabel (v : Vector α n)
    : (relabel order unit v).get = fun i => unit * v.get (order i) :=
  get_ofFn _

theorem relabel_injective {unit : α} (nonzero : unit ≠ 0)
    : Function.Injective (relabel order unit : Vector α n → Vector α n) := by
  intro v w same
  refine vector_ext_get (funext fun i => mul_left_cancel₀ nonzero ?_)
  have entry := congrFun (congrArg Vector.get same) (order.symm i)
  simpa only [get_relabel, Equiv.apply_symm_apply] using entry

theorem relabel_surjective {unit : α} (nonzero : unit ≠ 0)
    : Function.Surjective (relabel order unit : Vector α n → Vector α n) := by
  intro w
  refine ⟨relabel order.symm unit⁻¹ w, vector_ext_get ?_⟩
  simp only [get_relabel, Equiv.symm_apply_apply, mul_inv_cancel_left₀ nonzero]

theorem relabel_zero : relabel order unit (.replicate n 0) = .replicate n 0 := by
  refine vector_ext_get ?_
  simp only [get_relabel, get_replicate, mul_zero]

-----------------------------------------------------------------------------------------
-- Entrywise operations
-----------------------------------------------------------------------------------------

theorem addVec_relabel (v w : Vector α n)
    : addVec (relabel order unit v) (relabel order unit w) = relabel order unit (addVec v w) := by
  refine vector_ext_get ?_
  simp only [get_addVec, get_relabel, Pi.add_def, mul_add]

theorem mulEntries_relabel (v w : Vector α n)
    : mulEntries (relabel order unit v) (relabel order other w)
      = relabel order (unit * other) (mulEntries v w) := by
  refine vector_ext_get ?_
  simp only [get_mulEntries, get_relabel, Pi.mul_def, mul_mul_mul_comm]

theorem descend_relabel (v d : Vector α n) (a : α)
    : descend (relabel order unit v) a (relabel order unit d)
      = relabel order unit (descend v a d) := by
  refine vector_ext_get ?_
  simp only [get_descend, get_relabel, Pi.sub_def, Pi.smul_apply, smul_eq_mul, mul_sub,
    mul_left_comm]

theorem shift_relabel (v : Vector α n) (a : α)
    : shift (relabel order unit v) (unit * a) = relabel order unit (shift v a) := by
  refine vector_ext_get ?_
  simp only [get_shift, get_relabel, mul_add]

theorem map_sub_relabel (v : Vector α n) (a : α)
    : (relabel order unit v).map (· - unit * a) = relabel order unit (v.map (· - a)) := by
  refine vector_ext_get (funext fun i => ?_)
  simp [relabel, mul_sub]

-----------------------------------------------------------------------------------------
-- Sums and extremes
-----------------------------------------------------------------------------------------

theorem total_relabel (v : Vector α n)
    : total (relabel order unit v) = unit * total v := by
  rw [total_eq_sum, total_eq_sum, get_relabel, ← Finset.mul_sum, Equiv.sum_comp order v.get]

theorem dot_relabel (v w : Vector α n)
    : dot (relabel order unit v) (relabel order other w) = unit * other * dot v w := by
  have products := total_relabel order (unit * other) (mulEntries v w)
  rwa [← mulEntries_relabel] at products

variable {unit other} [LinearOrder α] [IsStrictOrderedRing α]

theorem least_relabel (positive : 0 < unit) (v : Vector α n)
    : least (relabel order unit v) = unit * least v := by
  rcases Nat.eq_zero_or_pos n with rfl | hn
  · have empty (w : Vector α 0) : least w = 0 := by
      rw [least, List.eq_nil_of_length_eq_zero w.length_toList, foldFirst]
    rw [empty, empty, mul_zero]
  · refine (least_isLeast hn _).unique ⟨?_, ?_⟩
    · obtain ⟨k, attained⟩ := (least_isLeast hn v).1
      refine ⟨order.symm k, ?_⟩
      rw [get_relabel, ← attained]
      exact congrArg (fun i => unit * v.get i) (order.apply_symm_apply k)
    · rintro _ ⟨i, rfl⟩
      rw [get_relabel]
      exact mul_le_mul_of_nonneg_left ((least_isLeast hn v).2 ⟨order i, rfl⟩) positive.le

/-- Vectors in one unit allow a move of the same length. -/
theorem minRatio?_relabel (positive : 0 < unit) (v d : Vector α n)
    : minRatio? (relabel order unit v) (relabel order unit d) = minRatio? v d := by
  have quotients
      : {q | ∃ i, 0 < (relabel order unit d).get i
          ∧ (relabel order unit v).get i / (relabel order unit d).get i = q}
        = {q | ∃ i, 0 < d.get i ∧ v.get i / d.get i = q} := by
    ext q
    simp only [get_relabel, Set.mem_ofPred_eq, mul_pos_iff_of_pos_left positive,
      mul_div_mul_left _ _ positive.ne']
    exact order.surjective.exists (p := fun i => 0 < d.get i ∧ v.get i / d.get i = q) |>.symm
  cases limit : minRatio? v d with
  | none =>
      rw [minRatio?_eq_none_iff] at limit ⊢
      intro i
      rw [get_relabel]
      exact mul_nonpos_of_nonneg_of_nonpos positive.le (limit (order i))
  | some r =>
      have least := minRatio?_isLeast limit
      cases relabelled : minRatio? (relabel order unit v) (relabel order unit d) with
      | none =>
          obtain ⟨q, blocking⟩ : {q | ∃ i, 0 < d.get i ∧ v.get i / d.get i = q}.Nonempty :=
            ⟨r, least.1⟩
          rw [← quotients] at blocking
          obtain ⟨i, positive, -⟩ := blocking
          exact absurd positive (not_lt.mpr (minRatio?_eq_none_iff.mp relabelled i))
      | some q =>
          have other := minRatio?_isLeast relabelled
          rw [quotients] at other
          rw [other.unique least]

-----------------------------------------------------------------------------------------
-- The shifts of the starting point
-----------------------------------------------------------------------------------------

theorem raise_relabel (positive : 0 < unit) (v : Vector α n)
    : raise (relabel order unit v) = unit * raise v := by
  rw [raise, raise, least_relabel order positive, firstMax_eq_max, firstMax_eq_max,
    mul_max_of_nonneg _ _ positive.le, mul_zero, mul_left_comm]

theorem shift_raise_relabel (positive : 0 < unit) (v : Vector α n)
    : shift (relabel order unit v) (raise (relabel order unit v))
      = relabel order unit (shift v (raise v)) := by
  rw [raise_relabel order positive, shift_relabel]

/-- Each of two vectors is balanced in its own unit, since the other unit cancels in its shift. -/
theorem balance_relabel (positive : 0 < unit) (positive' : 0 < other) (v w : Vector α n)
    : balance (relabel order unit v) (relabel order other w)
      = (relabel order unit (balance v w).1, relabel order other (balance v w).2) := by
  have products : 0 < dot (relabel order unit v) (relabel order other w) ↔ 0 < dot v w := by
    rw [dot_relabel, mul_pos_iff_of_pos_left (mul_pos positive positive')]
  have share {a b : α} (nonzero : b ≠ 0) (product sum : α)
      : startBalance * (a * b * product) / (b * sum) = a * (startBalance * product / sum) := by
    calc startBalance * (a * b * product) / (b * sum)
        = b * (a * (startBalance * product)) / (b * sum) := by
          congr 1
          ring
      _ = a * (startBalance * product / sum) := by
          rw [mul_div_mul_left _ _ nonzero, mul_div_assoc]
  simp only [balance, products]
  split
  · rw [dot_relabel, total_relabel, total_relabel, share positive'.ne', mul_comm unit other,
      share positive.ne', shift_relabel, shift_relabel]
  · rfl

end InteriorPoint
