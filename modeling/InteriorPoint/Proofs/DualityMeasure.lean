import InteriorPoint.Proofs.ExactSteps
import InteriorPoint.Proofs.NoBreakdown

/-! How a step changes the duality measure. Both directions change the sum of the products to first
order by what the right side says, and on feasible points they have no second-order part, because
their variables and slacks are orthogonal. So the new measure is known from the lengths and the
centering parameter.
-/

namespace InteriorPoint

open scoped Matrix

variable {α σ : Type} [Field α] [LinearOrder α] {engine : Engine α σ} {m n : Nat}

-----------------------------------------------------------------------------------------
-- Inner products of variables and slacks
-----------------------------------------------------------------------------------------

section Products

omit [LinearOrder α] in
/-- The inner product of two vectors that are moved by lengths of their own. -/
theorem dot_descend (x s d e : Vector α n) (a b : α)
    : dot (descend x a d) (descend s b e)
      = dot x s - a * dot s d - b * dot x e + a * b * dot d e := by
  simp only [dot_eq_dotProduct, get_descend, sub_dotProduct, dotProduct_sub, smul_dotProduct,
    dotProduct_smul, smul_eq_mul]
  rw [dotProduct_comm d.get s.get]
  ring

namespace LinearProgram

variable {p : LinearProgram α m n}

omit [LinearOrder α] in
/-- The sum of the products is as many times the duality measure as there are variables. -/
theorem mul_measureAt [CharZero α] (hn : 0 < n) (p : LinearProgram α m n) (y : Blocks α m n)
    : (n : α) * p.measureAt y = dot y.x y.s := by
  have nonzero : (n : α) ≠ 0 := Nat.cast_ne_zero.mpr hn.ne'
  have products : total (p.residual y).s = dot y.x y.s := by
    rw [total_eq_sum, p.residual_s, dot_eq_dotProduct]
    rfl
  rw [measureAt, measures, products]
  exact mul_div_cancel₀ _ nonzero

omit [LinearOrder α] in
/-- A direction that takes up nothing has variables orthogonal to its slacks: the matrix takes the
former to zero, and the latter are a combination of its rows.
-/
theorem TakesUp.orthogonal {d r : Blocks α m n} (h : p.TakesUp d r) (lam : r.lam.get = 0)
    (x : r.x.get = 0)
    : dot d.x d.s = 0 := by
  have slacks : d.s.get = -(p.toMatrixᵀ *ᵥ d.lam.get) := by
    rw [eq_neg_iff_add_eq_zero, add_comm, h.x, x]
  rw [dot_eq_dotProduct, slacks, dotProduct_neg, Matrix.mulVec_transpose, dotProduct_comm,
    ← Matrix.dotProduct_mulVec, h.lam, lam, dotProduct_zero, neg_zero]

omit [LinearOrder α] in
/-- A direction changes the sum of the products to first order by the sum of the right side. -/
theorem SolvesNewton.slope {y d r : Blocks α m n} (h : p.SolvesNewton y d r)
    : dot y.s d.x + dot y.x d.s = total r.s := by
  rw [total_eq_sum, ← h.s, dot_eq_dotProduct, dot_eq_dotProduct, dotProduct, dotProduct,
    ← Finset.sum_add_distrib]
  rfl

end LinearProgram

end Products

-----------------------------------------------------------------------------------------
-- The law of one step
-----------------------------------------------------------------------------------------

namespace LinearProgram

/-- Neither equations are violated at a point. -/
structure IsFeasible (p : LinearProgram α m n) (y : Blocks α m n) : Prop where
  x : (p.residual y).x.get = 0
  lam : (p.residual y).lam.get = 0

/-- How a step from a feasible point changes the duality measure: the directions are orthogonal and
the next point is feasible, and of the measure there is left what equal lengths let it.
-/
structure UpdatesFeasibly (p : LinearProgram α m n) (y affine final : Blocks α m n)
    (taken : Step α) (next : Blocks α m n)
    : Prop where
  affine_orthogonal : dot affine.x affine.s = 0
  final_orthogonal : dot final.x final.s = 0
  feasible : p.IsFeasible next
  sigma_eq
    : ∀ a,
        unitLength (minRatio? y.x affine.x) = a
        → unitLength (minRatio? y.s affine.s) = a
        → taken.sigma = (1 - a) ^ 3
  measure_eq
    : ∀ a,
        taken.primalLength = a
        → taken.dualLength = a
        → p.measureAt next = (1 - a * (1 - taken.sigma)) * p.measureAt y

/-- How a step by an affine and a final direction changes the duality measure. -/
structure UpdatesMeasure (p : LinearProgram α m n) (y affine final : Blocks α m n)
    (taken : Step α) (next : Blocks α m n)
    : Prop where
  slope
    : dot y.s final.x + dot y.x final.s
      = (1 - taken.sigma) * n * p.measureAt y + dot affine.x affine.s
  measure
    : n * p.measureAt next
      = n * p.measureAt y - taken.primalLength * dot y.s final.x
        - taken.dualLength * dot y.x final.s
        + taken.primalLength * taken.dualLength * dot final.x final.s
  feasibly : p.IsFeasible y → p.UpdatesFeasibly y affine final taken next

variable {p : LinearProgram α m n} {y affine final next : Blocks α m n} {taken : Step α}

namespace IsNewtonStep

variable [IsStrictOrderedRing α]

/-- The final direction changes the sum of the products by the centering target and by what the
affine direction would add to second order.
-/
theorem slope (hn : 0 < n) (h : p.IsNewtonStep y (p.measureAt y) affine final taken next)
    : dot y.s final.x + dot y.x final.s
      = (1 - taken.sigma) * n * p.measureAt y + dot affine.x affine.s := by
  have sum
      : total ((p.residual y).corrected affine taken.sigma (p.measureAt y)).s
        = dot y.x y.s + dot affine.x affine.s - n * (taken.sigma * p.measureAt y) := by
    rw [total_eq_sum, Blocks.get_corrected_s, p.residual_s, dot_eq_dotProduct, dot_eq_dotProduct]
    simp only [dotProduct, Pi.add_apply, Pi.sub_apply, Pi.mul_apply, Finset.sum_add_distrib,
      Finset.sum_sub_distrib, Finset.sum_const, Finset.card_univ, Fintype.card_fin, nsmul_eq_mul]
    ring
  rw [h.final_solves.slope, sum, ← p.mul_measureAt hn]
  ring

theorem measure (hn : 0 < n) (h : p.IsNewtonStep y (p.measureAt y) affine final taken next)
    : n * p.measureAt next
      = n * p.measureAt y - taken.primalLength * dot y.s final.x
        - taken.dualLength * dot y.x final.s
        + taken.primalLength * taken.dualLength * dot final.x final.s := by
  rw [p.mul_measureAt hn, p.mul_measureAt hn, h.next_eq]
  exact dot_descend ..

/-- From a feasible point an affine step of equal lengths leaves the measure that they leave of it,
so the centering parameter is a power of what they leave.
-/
theorem sigma_eq (hn : 0 < n) (h : p.IsNewtonStep y (p.measureAt y) affine final taken next)
    (positive : 0 < p.measureAt y) (feasible : p.IsFeasible y) {a : α}
    (primal : unitLength (minRatio? y.x affine.x) = a)
    (dual : unitLength (minRatio? y.s affine.s) = a)
    : taken.sigma = (1 - a) ^ 3 := by
  have nonzero : (n : α) ≠ 0 := Nat.cast_ne_zero.mpr hn.ne'
  have products := p.mul_measureAt hn y
  have orthogonal := h.affine_solves.orthogonal feasible.lam feasible.x
  have slope : dot y.s affine.x + dot y.x affine.s = n * p.measureAt y := by
    rw [h.affine_solves.slope, products, total_eq_sum, p.residual_s, dot_eq_dotProduct]
    rfl
  have left : y.affineMeasure affine = (1 - a) * p.measureAt y := by
    rw [Blocks.affineMeasure, primal, dual, dot_descend, orthogonal, ← products,
      div_eq_iff nonzero]
    linear_combination -a * slope
  have centered := h.centered
  simp only [centering, if_pos positive, isFinite_eq_true, power_eq_pow, left,
    mul_div_cancel_right₀ _ positive.ne'] at centered
  exact (Except.ok.inj centered).symm

/-- From a feasible point a step of equal lengths leaves the measure as far as it is not taken up by
what the centering parameter lets it.
-/
theorem measure_eq (hn : 0 < n) (h : p.IsNewtonStep y (p.measureAt y) affine final taken next)
    (feasible : p.IsFeasible y) {a : α} (primal : taken.primalLength = a)
    (dual : taken.dualLength = a)
    : p.measureAt next = (1 - a * (1 - taken.sigma)) * p.measureAt y := by
  have nonzero : (n : α) ≠ 0 := Nat.cast_ne_zero.mpr hn.ne'
  have slope := h.slope hn
  have measure := h.measure hn
  rw [h.affine_solves.orthogonal feasible.lam feasible.x] at slope
  rw [h.final_solves.orthogonal feasible.lam feasible.x, primal, dual] at measure
  refine mul_left_cancel₀ nonzero ?_
  linear_combination measure - a * slope

end IsNewtonStep

end LinearProgram

namespace State

variable [IsStrictOrderedRing α]

/-- A step with exact factors changes the duality measure by a law of its two directions, whatever
the point is. An engine that answers every system takes such a step.
-/
theorem step_updatesMeasure (exact : engine.IsExact) (p : LinearProgram α m n) (hn : 0 < n)
    {st : State engine m n} (prepared : st.IsPrepared p) (positive : 0 < p.measureAt st.point)
    : (∀ (taken : Step α) (next : State engine m n) (notices : List Notice),
          st.step (p.measureAt st.point) = (.ok taken, next, notices)
          → p.UpdatesMeasure st.point st.solveDirection.2.1.direction next.direction taken
              next.point)
      ∧ (engine.IsReliable → ∃ taken, (st.step (p.measureAt st.point)).1 = .ok taken) := by
  constructor
  · intro taken next notices done
    have newton := step_isNewtonStep exact prepared done
    have contracts := step_contracts exact prepared done
    refine ⟨newton.slope hn, newton.measure hn, fun feasible => ?_⟩
    exact {
      affine_orthogonal := newton.affine_solves.orthogonal feasible.lam feasible.x
      final_orthogonal := newton.final_solves.orthogonal feasible.lam feasible.x
      feasible := by
        constructor
        · rw [contracts.x, feasible.x, smul_zero]
        · rw [contracts.lam, feasible.lam, smul_zero]
      sigma_eq := fun a primal dual => newton.sigma_eq hn positive feasible primal dual
      measure_eq := fun a primal dual => newton.measure_eq hn feasible primal dual
    }
  · intro reliable
    obtain ⟨t, jacobian, target, factors, before, after, assembled, made, phase⟩ :=
      prepared.factored
    exact step_succeeds reliable phase _

/-- From every point in the interior a reliable engine can be prepared for a step. -/
theorem exists_isPrepared (reliable : engine.IsReliable) (hn : 0 < n) {p : LinearProgram α m n}
    (independent : LinearIndependent α p.toMatrix.row) (st : State engine m n)
    (interior : st.point.IsInterior) (room : p.jacobianCapacity ≤ st.jacobian.capacity)
    : ∃ ready : State engine m n, ready.point = st.point ∧ ready.IsPrepared p := by
  let jacobian : Triplet α (n + m + n) (n + m + n) :=
    { st.jacobian with entries := p.matrix.jacobianEntries st.point.x st.point.s }
  let placed : State engine m n := { st.updateResidual p with jacobian }
  have assembled : p.assemble st.point st.jacobian = .ok jacobian := p.assemble_eq st.point room
  have nonsingular := LinearProgram.jacobian_det_ne_zero independent interior
  have made : (placed.prepare 0 false).1 = .ok () :=
    prepare_succeeds reliable hn placed (.inl rfl) nonsingular false
  have prepared : placed.prepare 0 false = (.ok (), (placed.prepare 0 false).2) :=
    Prod.ext made rfl
  refine ⟨(placed.prepare 0 false).2.1, ?_, ?_⟩
  · rw [prepare_leaves prepared]
    rfl
  · have current : (st.updateResidual p).residual = p.residual (st.updateResidual p).point := rfl
    exact (isPrepared_of_prepare current assembled prepared (.inl rfl)).1

/-- A point in the interior that is feasible for the sample program. -/
def sampleFeasible : Blocks ℚ 1 2 where
  x := #v[1, 3]
  lam := #v[-3]
  s := #v[2, 1]

/-- From there the dense engine takes a step; the duality measure is five halves. -/
theorem step_updatesMeasure_feasible
    : LinearProgram.sample.IsFeasible sampleFeasible
      ∧ LinearProgram.sample.measureAt sampleFeasible = 5 / 2
      ∧ ∃ (st next : State (Direct.engine .dense : Engine ℚ Unit) 1 2) (taken : Step ℚ)
            (notices : List Notice),
          st.point = sampleFeasible
          ∧ st.IsPrepared .sample
          ∧ st.step (LinearProgram.sample.measureAt st.point) = (.ok taken, next, notices)
          ∧ LinearProgram.sample.UpdatesMeasure st.point st.solveDirection.2.1.direction
              next.direction taken next.point := by
  have feasible : LinearProgram.sample.IsFeasible sampleFeasible := by
    constructor
    · decide +kernel
    · decide +kernel
  have measured : LinearProgram.sample.measureAt sampleFeasible = 5 / 2 := by decide +kernel
  have interior : sampleFeasible.IsInterior := by
    constructor
    · decide +kernel
    · decide +kernel
  have reliable : (Direct.engine .dense : Engine ℚ Unit).IsReliable := Direct.engine_isReliable _
  obtain ⟨st, point, prepared⟩ := exists_isPrepared reliable (by decide)
    LinearProgram.sample_independent { sample with point := sampleFeasible } interior
    (by decide +kernel)
  have positive : 0 < LinearProgram.sample.measureAt st.point := by
    rw [point, measured]
    norm_num
  obtain ⟨updates, succeeds⟩ := step_updatesMeasure (Direct.engine_isExact .dense) .sample
    (by decide) prepared positive
  obtain ⟨taken, done⟩ := succeeds reliable
  exact ⟨feasible, measured, st, _, taken, _, point, prepared, Prod.ext done rfl,
    updates taken _ _ (Prod.ext done rfl)⟩

end State

end InteriorPoint
