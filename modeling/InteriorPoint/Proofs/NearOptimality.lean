import InteriorPoint.Method.Construction
import InteriorPoint.Proofs.Interior
import InteriorPoint.Proofs.StoppingTest

/-! What the result of a solve that converges is worth. Weak duality holds at every point up to
the two residuals there, and the test that lets a solve stop bounds the gap of the objectives, so
no other point does much better, whichever way the backend answered.
-/

namespace InteriorPoint

open scoped Matrix

/-- A program that is put together has rows and columns. -/
theorem AnyProgram.pos_of_ok {α : Type} {a : Sparse α} {rightSide cost : List α}
    {q : AnyProgram α} (h : AnyProgram.of a rightSide cost = .ok q)
    : 0 < q.rows ∧ 0 < q.cols := by
  simp only [AnyProgram.of] at h
  split at h
  · simp at h
  · next filled =>
      split at h
      · next fits =>
          obtain rfl := Except.ok.inj h
          obtain ⟨rows, cols⟩ := fits
          constructor
          · change 0 < a.rows
            omega
          · change 0 < a.cols
            omega
      · simp at h

variable {α σ ε : Type} [Field α] [LinearOrder α] [IsStrictOrderedRing α]
  {engine : Engine α σ} {m n : Nat}

-----------------------------------------------------------------------------------------
-- Weak duality holds up to the residuals
-----------------------------------------------------------------------------------------

section Duality

/-- An inner product is at most a bound of the one side times the absolute sum of the other. -/
theorem abs_dotProduct_le {k : Nat} {u v : Fin k → α} {bound : α} (h : ∀ i, |u i| ≤ bound)
    : |u ⬝ᵥ v| ≤ bound * ∑ i, |v i| := by
  calc |u ⬝ᵥ v|
      ≤ ∑ i, |u i * v i| := Finset.abs_sum_le_sum_abs ..
    _ ≤ ∑ i, bound * |v i| := by
        refine Finset.sum_le_sum fun i _ => ?_
        rw [abs_mul]
        exact mul_le_mul_of_nonneg_right (h i) (abs_nonneg _)
    _ = bound * ∑ i, |v i| := (Finset.mul_sum ..).symm

namespace LinearProgram

variable (p : LinearProgram α m n)

omit [LinearOrder α] [IsStrictOrderedRing α] in
/-- The costs are what multipliers and slacks make of the columns, up to the dual residual. -/
theorem cost_dotProduct (y : Blocks α m n) (v : Fin n → α)
    : p.cost.get ⬝ᵥ v
      = y.lam.get ⬝ᵥ (p.toMatrix *ᵥ v) + y.s.get ⬝ᵥ v - (p.residual y).x.get ⬝ᵥ v := by
  rw [residual_x, sub_dotProduct, add_dotProduct, Matrix.mulVec_transpose,
    ← Matrix.dotProduct_mulVec]
  ring

omit [LinearOrder α] [IsStrictOrderedRing α] in
/-- The right side is what the variables make of the rows, up to the primal residual. -/
theorem rightSide_dotProduct (y : Blocks α m n) (w : Fin m → α)
    : p.rightSide.get ⬝ᵥ w
      = y.x.get ⬝ᵥ (p.toMatrixᵀ *ᵥ w) - (p.residual y).lam.get ⬝ᵥ w := by
  rw [residual_lam, sub_dotProduct, Matrix.mulVec_transpose, dotProduct_comm y.x.get,
    ← Matrix.dotProduct_mulVec, dotProduct_comm w]
  ring

/-- The dual objective at any point with slacks that are not negative exceeds the cost of no
feasible `x'` by more than the dual residual allows.
-/
theorem dual_le_cost {y : Blocks α m n} (slack : 0 ≤ y.s.get) {x' : Fin n → α} (hx : 0 ≤ x')
    (feasible : p.toMatrix *ᵥ x' = p.rightSide.get)
    : p.rightSide.get ⬝ᵥ y.lam.get
      ≤ p.cost.get ⬝ᵥ x' + (p.residual y).dualNorm * ∑ i, x' i := by
  have priced := p.cost_dotProduct y x'
  have complementary : 0 ≤ y.s.get ⬝ᵥ x' := dotProduct_nonneg_of_nonneg slack hx
  have violated : |(p.residual y).x.get ⬝ᵥ x'| ≤ (p.residual y).dualNorm * ∑ i, |x' i| :=
    abs_dotProduct_le fun i => abs_get_le_supNorm (p.residual y).x i
  have sizes : ∑ i, |x' i| = ∑ i, x' i := Finset.sum_congr rfl fun i _ => abs_of_nonneg (hx i)
  rw [sizes] at violated
  rw [feasible, dotProduct_comm y.lam.get] at priced
  linarith [(abs_le.mp violated).2]

/-- So the objective at such a point is no worse than the cost of any feasible `x'`, up to the gap
of the two objectives and what the dual residual allows.
-/
theorem objective_le_cost {y : Blocks α m n} (slack : 0 ≤ y.s.get) {x' : Fin n → α} (hx : 0 ≤ x')
    (feasible : p.toMatrix *ᵥ x' = p.rightSide.get) {gap : α}
    (close : |p.objective y - p.dualObjective y| ≤ gap)
    : p.objective y ≤ p.cost.get ⬝ᵥ x' + gap + (p.residual y).dualNorm * ∑ i, x' i := by
  have weak := p.dual_le_cost slack hx feasible
  have dual : p.dualObjective y = p.rightSide.get ⬝ᵥ y.lam.get := dot_eq_dotProduct ..
  rw [← dual] at weak
  linarith [(abs_le.mp close).2]

/-- The dual objective of feasible multipliers and slacks exceeds the cost at any point that is
not negative by no more than the primal residual allows.
-/
theorem dual_le_objective {y : Blocks α m n} (hx : 0 ≤ y.x.get) {lam' : Fin m → α}
    {s' : Fin n → α} (slack : 0 ≤ s') (feasible : p.toMatrixᵀ *ᵥ lam' + s' = p.cost.get)
    : p.rightSide.get ⬝ᵥ lam' - (p.residual y).primalNorm * ∑ i, |lam' i|
      ≤ p.cost.get ⬝ᵥ y.x.get := by
  have rows := p.rightSide_dotProduct y lam'
  have complementary : 0 ≤ y.x.get ⬝ᵥ s' := dotProduct_nonneg_of_nonneg hx slack
  have violated : |(p.residual y).lam.get ⬝ᵥ lam'| ≤ (p.residual y).primalNorm * ∑ i, |lam' i| :=
    abs_dotProduct_le fun i => abs_get_le_supNorm (p.residual y).lam i
  have cost
      : p.cost.get ⬝ᵥ y.x.get = y.x.get ⬝ᵥ (p.toMatrixᵀ *ᵥ lam') + y.x.get ⬝ᵥ s' := by
    rw [← feasible, add_dotProduct, dotProduct_comm y.x.get, dotProduct_comm y.x.get]
  linarith [(abs_le.mp violated).1]

end LinearProgram

end Duality

-----------------------------------------------------------------------------------------
-- A run ends as accepted only where the test is passed
-----------------------------------------------------------------------------------------

section Acceptance

omit [IsStrictOrderedRing α] in
/-- What the test of a pass asks for: a gap below its tolerance and, with a feasibility tolerance,
residuals below that.
-/
theorem Config.accepts_iff (config : Config α) (r : Blocks α m n) (gap : α)
    : config.accepts r gap
      ↔ gap < config.gapTolerance
        ∧ ∀ tolerance ∈ config.feasibilityTolerance,
            r.primalNorm < tolerance ∧ r.dualNorm < tolerance := by
  simpa using Config.accepts_iff_of_defined (le_refl config.gapTolerance) r gap

theorem relativeGap_eq (primal dual : α)
    : relativeGap primal dual = |primal - dual| / (1 + |primal|) := by
  simp [relativeGap]

namespace State

/-- A state in which a pass was accepted: the residual at hand is the one of its point, and the
test is passed there.
-/
structure IsAccepted (p : LinearProgram α m n) (config : Config α) (st : State engine m n)
    : Prop where
  nonnegative : st.point.IsNonnegative
  residual_eq : st.residual = p.residual st.point
  accepts
    : config.accepts (p.residual st.point)
        (relativeGap (p.objective st.point) (p.dualObjective st.point))

/-- A run from a point that is not negative ends in such a state if it ends as accepted. -/
theorem isAccepted_passes {p : LinearProgram α m n} {config : Config α} {watch : Watch α ε m n}
    {st : State engine m n} (hy : st.point.IsNonnegative) {remaining : Nat}
    {seen : Array (Event α m n)}
    (accepted : (st.passes p config watch remaining 0 none seen).1 = .accepted)
    : (st.passes p config watch remaining 0 none seen).2.1.IsAccepted p config := by
  obtain ⟨residual_eq, accepts⟩ := passesTest_of_passes accepted
  refine ⟨?_, residual_eq, accepts⟩
  refine passes_induction (fun _ st => st.point.IsNonnegative)
    (fun _ st => st.point.IsNonnegative) ?_ ?_ remaining hy fun _ _ nonneg => nonneg
  · intro _ _ _ _ _ nonneg passed
    exact (pass_cases passed).isNonnegative nonneg
  · intro _ _ _ _ _ nonneg passed
    exact (pass_cases passed).isNonnegative nonneg

end State

end Acceptance

-----------------------------------------------------------------------------------------
-- The result is that of the state in which the run ended
-----------------------------------------------------------------------------------------

/-- What a converged solve promises of its result. The point is not negative; objectives, gap and
residuals are those of the point; gap and residuals are below what the configuration asks for; and
the objective is as good as that of every feasible `x'` and of every dual feasible `lam'` and
`s'`, up to the gap and the residuals.
-/
structure Result.IsNearOptimal (p : LinearProgram α m n) (config : Config α) (r : Result α m n)
    : Prop where
  nonnegative : r.point.IsNonnegative
  objective_eq : r.objective = p.cost.get ⬝ᵥ r.point.x.get
  dualObjective_eq : r.dualObjective = p.rightSide.get ⬝ᵥ r.point.lam.get
  gap_eq : r.gap = |r.objective - r.dualObjective| / (1 + |r.objective|)
  gap_lt
    : |r.objective - r.dualObjective| < config.gapTolerance * (1 + |r.objective|)
  primalResidual_eq
    : IsGreatest
        (Set.range fun i => |(p.toMatrix *ᵥ r.point.x.get - p.rightSide.get) i|)
        r.primalResidual
  dualResidual_eq
    : IsGreatest
        (Set.range fun i =>
          |(p.toMatrixᵀ *ᵥ r.point.lam.get + r.point.s.get - p.cost.get) i|)
        r.dualResidual
  residual_lt
    : ∀ tolerance ∈ config.feasibilityTolerance,
        r.primalResidual < tolerance ∧ r.dualResidual < tolerance
  objective_le
    : ∀ x', 0 ≤ x'
      → p.toMatrix *ᵥ x' = p.rightSide.get
      → r.objective
        ≤ p.cost.get ⬝ᵥ x' + config.gapTolerance * (1 + |r.objective|)
          + r.dualResidual * ∑ i, x' i
  le_objective
    : ∀ lam' s', 0 ≤ s'
      → p.toMatrixᵀ *ᵥ lam' + s' = p.cost.get
      → p.rightSide.get ⬝ᵥ lam' - r.primalResidual * ∑ i, |lam' i| ≤ r.objective

namespace State

/-- The snapshot of a state in which a pass was accepted keeps the promise. -/
theorem IsAccepted.result_isNearOptimal (hm : 0 < m) (hn : 0 < n) {p : LinearProgram α m n}
    {config : Config α} {st : State engine m n} (h : st.IsAccepted p config)
    : (st.result p).IsNearOptimal p config := by
  obtain ⟨gap, small⟩ := (config.accepts_iff _ _).mp h.accepts
  have objective_eq : p.objective st.point = p.cost.get ⬝ᵥ st.point.x.get := dot_eq_dotProduct ..
  have dualObjective_eq : p.dualObjective st.point = p.rightSide.get ⬝ᵥ st.point.lam.get :=
    dot_eq_dotProduct ..
  have gap_lt
      : |p.objective st.point - p.dualObjective st.point|
        < config.gapTolerance * (1 + |p.objective st.point|) := by
    have positive : 0 < 1 + |p.objective st.point| := by positivity
    rw [relativeGap_eq] at gap
    exact (div_lt_iff₀ positive).mp gap
  exact {
    nonnegative := h.nonnegative
    objective_eq
    dualObjective_eq
    gap_eq := relativeGap_eq ..
    gap_lt
    primalResidual_eq := by
      rw [← p.residual_lam, result, h.residual_eq]
      exact supNorm_isGreatest hm (p.residual st.point).lam
    dualResidual_eq := by
      rw [← p.residual_x, result, h.residual_eq]
      exact supNorm_isGreatest hn (p.residual st.point).x
    residual_lt := by
      rw [← h.residual_eq] at small
      exact small
    objective_le := by
      intro x' hx feasible
      have bound := p.objective_le_cost h.nonnegative.s hx feasible gap_lt.le
      rw [← h.residual_eq] at bound
      exact bound
    le_objective := by
      intro lam' s' slack feasible
      have bound := p.dual_le_objective h.nonnegative.x slack feasible
      rw [← h.residual_eq, ← objective_eq] at bound
      exact bound
  }

/-- A solve that converges returns a near-optimal result, for every backend. -/
theorem solve_isNearOptimal (p : LinearProgram α m n) (hm : 0 < m) (hn : 0 < n)
    (config : Config α) (watch : Watch α ε m n) (st : State engine m n) (r : Result α m n)
    (converged : (st.solve p config watch).1 = .converged r)
    : r.IsNearOptimal p config := by
  obtain ⟨y, seen, start, accepted, rfl⟩ := solve_converged converged
  have nonneg : (st.startedAt y).point.IsNonnegative := p.startingPoint_isNonnegative start
  exact (isAccepted_passes nonneg accepted).result_isNearOptimal hm hn

/-- The solve of the sample program converges. -/
theorem solve_isNearOptimal_sample
    : ∃ r, (sample.solve .sample .sample .silent).1 = .converged r
      ∧ r.IsNearOptimal .sample .sample := by
  obtain ⟨r, converged⟩ := Ending.exists_converged
    (x := (sample.solve .sample .sample .silent).1) (by decide +kernel)
  exact ⟨r, converged, solve_isNearOptimal .sample (by decide) (by decide) .sample .silent _ r
    converged⟩

end State

end InteriorPoint
