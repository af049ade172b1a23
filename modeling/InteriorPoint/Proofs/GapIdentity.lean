import InteriorPoint.Proofs.DualityMeasure
import InteriorPoint.Proofs.NearOptimality

/-! How far the two objectives are apart. At every point, whatever its signs and residuals, their
difference is the sum of the products of variables and slacks, up to what the residuals make of
multipliers and variables. So what the stopping test looks at on feasible points is the duality
measure.
-/

namespace InteriorPoint

open scoped Matrix

variable {α σ : Type} [Field α] {engine : Engine α σ} {m n : Nat}

-----------------------------------------------------------------------------------------
-- The two objectives at a point
-----------------------------------------------------------------------------------------

/-- The product with a vector of zeros is zero. -/
theorem dot_eq_zero_of_get {k : Nat} (u : Vector α k) {v : Vector α k} (zero : v.get = 0)
    : dot u v = 0 := by
  rw [dot_eq_dotProduct, zero, dotProduct_zero]

namespace LinearProgram

variable (p : LinearProgram α m n) (y : Blocks α m n)

/-- The matrix enters the dual residual by its columns and the primal one by its rows; taken with
the variables and the multipliers, the two products with it are the same and cancel.
-/
theorem objective_sub_dualObjective
    : p.objective y - p.dualObjective y
      = dot y.x y.s + dot y.lam (p.residual y).lam - dot y.x (p.residual y).x := by
  have priced := p.cost_dotProduct y y.x.get
  have violated
      : y.lam.get ⬝ᵥ (p.residual y).lam.get
        = y.lam.get ⬝ᵥ (p.toMatrix *ᵥ y.x.get) - p.rightSide.get ⬝ᵥ y.lam.get := by
    rw [residual_lam, dotProduct_sub, dotProduct_comm y.lam.get p.rightSide.get]
  simp only [objective, dualObjective, dot_eq_dotProduct]
  rw [priced, violated, dotProduct_comm y.s.get, dotProduct_comm (p.residual y).x.get]
  ring

/-- The duality measure times the number of variables is the sum of the products, also where there
are no variables to divide by.
-/
theorem mul_mu [CharZero α]
    : (n : α) * (p.measures y (p.residual y)).mu = dot y.x y.s := by
  rcases Nat.eq_zero_or_pos n with rfl | positive
  · rw [dot_eq_dotProduct, dotProduct, Finset.univ_eq_empty, Finset.sum_empty, Nat.cast_zero,
      zero_mul]
  · exact p.mul_measureAt positive y

end LinearProgram

-----------------------------------------------------------------------------------------
-- What is measured at a point and recorded of a pass
-----------------------------------------------------------------------------------------

variable [LinearOrder α]

/-- What measures at a point with a given residual say of the gap of the objectives. -/
structure Measures.SplitsGap (measured : Measures α) (y r : Blocks α m n) : Prop where
  sub_eq
    : measured.primal - measured.dual = n * measured.mu + dot y.lam r.lam - dot y.x r.x
  abs_sub_eq
    : r.x.get = 0 → r.lam.get = 0 → |measured.primal - measured.dual| = |n * measured.mu|
  dual_le
    : r.x.get = 0 → r.lam.get = 0 → y.IsNonnegative → measured.dual ≤ measured.primal

/-- What a record of a pass at a point with a given residual says of it. -/
structure Record.SplitsGap (record : Record α) (y r : Blocks α m n) : Prop where
  gap_eq
    : record.gap
      = |n * record.mu + dot y.lam r.lam - dot y.x r.x| / (1 + |record.objective|)
  gap_eq_of_feasible
    : r.x.get = 0 → r.lam.get = 0 → record.gap = n * record.mu / (1 + |record.objective|)

variable [IsStrictOrderedRing α]

/-- Of variables and slacks that are not negative no product is. -/
theorem Blocks.IsNonnegative.dot_nonneg {y : Blocks α m n} (h : y.IsNonnegative)
    : 0 ≤ dot y.x y.s := by
  rw [dot_eq_dotProduct]
  exact dotProduct_nonneg_of_nonneg h.x h.s

namespace LinearProgram

variable (p : LinearProgram α m n) (y : Blocks α m n)

theorem measures_splitsGap
    : (p.measures y (p.residual y)).SplitsGap y (p.residual y) := by
  have split
      : p.objective y - p.dualObjective y
        = n * (p.measures y (p.residual y)).mu + dot y.lam (p.residual y).lam
          - dot y.x (p.residual y).x := by
    rw [mul_mu, objective_sub_dualObjective]
  have feasible (x : (p.residual y).x.get = 0) (lam : (p.residual y).lam.get = 0)
      : p.objective y - p.dualObjective y = n * (p.measures y (p.residual y)).mu := by
    rw [split, dot_eq_zero_of_get _ lam, dot_eq_zero_of_get _ x, add_zero, sub_zero]
  refine ⟨split, fun x lam => congrArg _ (feasible x lam), fun x lam nonnegative => ?_⟩
  refine sub_nonneg.mp ?_
  change 0 ≤ p.objective y - p.dualObjective y
  rw [feasible x lam, mul_mu]
  exact nonnegative.dot_nonneg

end LinearProgram

namespace State

/-- The record of a state splits the gap at its point; the variables and slacks of a run are not
negative, so no absolute value is left of it where the point is feasible.
-/
theorem recordAt_splitsGap (p : LinearProgram α m n) (iteration : Nat) {st : State engine m n}
    (nonnegative : st.point.IsNonnegative)
    : (st.recordAt p iteration).SplitsGap st.point (p.residual st.point) := by
  have splits := p.measures_splitsGap st.point
  have gap_eq := relativeGap_eq (p.objective st.point) (p.dualObjective st.point)
  constructor
  · exact gap_eq.trans
      (congrArg (fun d => |d| / (1 + |p.objective st.point|)) splits.sub_eq)
  · intro x lam
    have products
        : 0 ≤ n * (p.measures st.point (p.residual st.point)).mu := by
      rw [p.mul_mu]
      exact nonnegative.dot_nonneg
    have numerator := splits.abs_sub_eq x lam
    rw [abs_of_nonneg products] at numerator
    exact gap_eq.trans (congrArg (· / (1 + |p.objective st.point|)) numerator)

/-- Wherever the residual is computed, what is measured with it splits the gap of the objectives,
and so does every record of a solve at the point of its pass.
-/
theorem updateResidual_splitsGap (p : LinearProgram α m n) (st : State engine m n)
    : (p.measures st.point (st.updateResidual p).residual).SplitsGap st.point
          (st.updateResidual p).residual
      ∧ ∀ {ε : Type} (config : Config α) (watch : Watch α ε m n) (y : Blocks α m n),
          p.startingPoint = .ok y
          → ∀ k, ∀ h : k < (st.solve p config watch).2.1.history.size,
              ((st.solve p config watch).2.1.history[k]).SplitsGap
                (st.afterPasses p config watch y k).point
                ((st.afterPasses p config watch y k).updateResidual p).residual := by
  refine ⟨p.measures_splitsGap st.point, fun {ε} config watch y start k h => ?_⟩
  have noted := (st.goesThrough p config watch y start).record_eq k h
  have splits := recordAt_splitsGap p k (isNonnegative_afterPasses start config watch st k)
  -- The step that a record may hold is no part of what it says of the gap.
  rw [← noted] at splits
  exact ⟨splits.gap_eq, splits.gap_eq_of_feasible⟩

/-- At a point of any signs, with residuals that take part in the gap on either side, at a feasible
one, where the gap is twice the measure, and at every pass of a solve.
-/
theorem updateResidual_splitsGap_sample
    : (∃ st : State (Direct.engine .dense : Engine ℚ Unit) 1 2,
          st.point = ⟨#v[-1, 2], #v[3], #v[2, -5]⟩
          ∧ (LinearProgram.sample.measures st.point (st.updateResidual .sample).residual).SplitsGap
              st.point (st.updateResidual .sample).residual
          ∧ LinearProgram.sample.objective st.point
            - LinearProgram.sample.dualObjective st.point = -15
          ∧ dot st.point.lam (st.updateResidual .sample).residual.lam = -9
          ∧ dot st.point.x (st.updateResidual .sample).residual.x = -6)
      ∧ LinearProgram.sample.IsFeasible sampleFeasible
      ∧ |LinearProgram.sample.objective sampleFeasible
          - LinearProgram.sample.dualObjective sampleFeasible| = 5
      ∧ ∃ y, LinearProgram.sample.startingPoint = .ok y
        ∧ ∀ k, ∀ h : k < (sample.solve .sample .sample .silent).2.1.history.size,
            ((sample.solve .sample .sample .silent).2.1.history[k]).SplitsGap
              (sample.afterPasses .sample .sample .silent y k).point
              ((sample.afterPasses .sample .sample .silent y k).updateResidual .sample).residual
            := by
  let anySigns : State (Direct.engine .dense : Engine ℚ Unit) 1 2 :=
    { sample with point := ⟨#v[-1, 2], #v[3], #v[2, -5]⟩ }
  let feasible : State (Direct.engine .dense : Engine ℚ Unit) 1 2 :=
    { sample with point := sampleFeasible }
  have isFeasible : LinearProgram.sample.IsFeasible sampleFeasible := by
    constructor
    · decide +kernel
    · decide +kernel
  have numerator := (updateResidual_splitsGap .sample feasible).1.abs_sub_eq isFeasible.x
    isFeasible.lam
  obtain ⟨y, start⟩ := exists_ok (x := LinearProgram.sample.startingPoint) (by decide +kernel)
  refine ⟨⟨anySigns, rfl, (updateResidual_splitsGap .sample anySigns).1, ?_, ?_, ?_⟩, isFeasible,
    ?_, y, start, ?_⟩
  · decide +kernel
  · decide +kernel
  · decide +kernel
  · exact numerator.trans (by decide +kernel)
  · exact (updateResidual_splitsGap .sample sample).2 .sample .silent y start

end State

end InteriorPoint
