import InteriorPoint.Proofs.FitStart
import InteriorPoint.Proofs.IndependentRows
import InteriorPoint.Report.Kind

/-! What can be relied on at the start of a solve. Dependent rows are the one thing that is refused.
Otherwise no division by zero is met, the starting point is not negative, and it is in the interior
if the raised vectors have any complementarity. Least-norm solutions that need no raising are
optimal, and every solve returns them at once.
-/

namespace InteriorPoint

open scoped Matrix

variable {α : Type} [Field α] [LinearOrder α] {m n : Nat}

-----------------------------------------------------------------------------------------
-- Divisions
-----------------------------------------------------------------------------------------

/-- A division that may make anything of a divisor of zero. -/
def IsDivisionOffZero (division : α → α → α) : Prop :=
  ∀ a b, b ≠ 0 → division a b = a / b

/-- The starting point as it is computed with another division. -/
def LinearProgram.startingPointBy (division : α → α → α) (p : LinearProgram α m n)
    : Except Definite.Fault (Blocks α m n) :=
  @startingPoint α _ _ _ _ _ ⟨division⟩ _ _ _ _ _ _ m n _ p

section Division

variable {division : α → α → α} (agrees : IsDivisionOffZero division)

include agrees

namespace Definite

/-- A pivot is found positive before anything is divided by it. -/
theorem factor_division (number : Nat) (a : Grid α n n)
    : @factor α _ _ _ ⟨division⟩ _ _ _ n number a = factor number a := by
  induction n generalizing number with
  | zero => rfl
  | succ n ih =>
      let column := (firstRow a).map (division · 1)
      let row := (firstRow a).map (division · (a.entry 0 0))
      have divided
          : @factor α _ _ _ ⟨division⟩ _ _ _ (n + 1) number a
            = if 0 < a.entry 0 0 then
                (@factor α _ _ _ ⟨division⟩ _ _ _ n (number + 1) (a.remainder column row)).map
                  (step (a.entry 0 0) 1 column row)
              else .error number :=
        rfl
      rw [divided, factor_succ]
      split
      · next positive =>
          have whole : column = firstRow a := by
            refine vector_ext_get (funext fun j => ?_)
            simp [column, agrees _ _ one_ne_zero]
          have quotients : row = (firstRow a).map (· / a.entry 0 0) := by
            refine vector_ext_get (funext fun j => ?_)
            simp [row, agrees _ _ positive.ne']
          rw [ih, whole, quotients]
          rfl
      · rfl

/-- The solutions divide by the pivots alone, by induction on the factorization. -/
theorem solve_division {number : Nat} {a : Grid α n n} {factors : Definite α n}
    (made : factor number a = .ok factors) (b : Vector α n)
    : @solve α _ _ _ ⟨division⟩ _ n factors b = factors.solve b := by
  induction n generalizing number with
  | zero =>
      cases factors
      rfl
  | succ n ih =>
      obtain ⟨pivot, rest, smaller, rfl⟩ := factor_succ_ok made
      let quotient (x y : α) : α := @HDiv.hDiv α α α (@instHDiv α ⟨division⟩) x y
      have first (x : α) : quotient x (a.entry 0 0) = x / a.entry 0 0 := agrees _ _ pivot.ne'
      have last (x : α) : quotient x 1 = x / 1 := agrees _ _ one_ne_zero
      simp only [quotient] at first last
      simp only [firstStep_eq, solve, first, last, ih smaller]

theorem solvePair_division (a : Grid α n n) (b c : Vector α n)
    : @solvePair α _ _ _ _ ⟨division⟩ _ _ _ _ _ n a b c = solvePair a b c := by
  simp only [solvePair, factor_division agrees]
  cases made : factor 1 a with
  | error order => rfl
  | ok factors => simp only [solve_division agrees made]

end Definite

variable [IsStrictOrderedRing α]

theorem raise_division (x : Vector α n)
    : @raise α _ _ ⟨division⟩ _ _ _ _ _ _ n x = raise x := by
  have two : ((2 : Nat) : α) ≠ 0 := by norm_num
  exact congrArg (fun amount => firstMax (-amount * least x) 0) (agrees _ _ two)

/-- Two vectors that are not negative are only balanced if neither total is zero. -/
theorem balance_division {x s : Vector α n} (hx : 0 ≤ x.get) (hs : 0 ≤ s.get)
    : @balance α _ _ _ ⟨division⟩ _ _ _ n x s = balance x s := by
  simp only [balance]
  split
  · next positive =>
      have exchanged : 0 < dot s x := by
        rwa [dot_eq_dotProduct, dotProduct_comm, ← dot_eq_dotProduct]
      have two : ((2 : Nat) : α) ≠ 0 := by norm_num
      have half : division ((1 : Nat) : α) ((2 : Nat) : α) = startBalance := agrees _ _ two
      have primal
          : division (division ((1 : Nat) : α) ((2 : Nat) : α) * dot x s) (total s)
            = startBalance * dot x s / total s := by
        rw [half]
        exact agrees _ _ (total_pos_of_dot_pos hs exchanged).ne'
      have dual
          : division (division ((1 : Nat) : α) ((2 : Nat) : α) * dot x s) (total x)
            = startBalance * dot x s / total x := by
        rw [half]
        exact agrees _ _ (total_pos_of_dot_pos hx positive).ne'
      exact congrArg₂ (fun d e => (shift x d, shift s e)) primal dual
  · rfl

/-- Whatever a division by zero makes, the starting point is the same. -/
theorem LinearProgram.startingPointBy_eq (p : LinearProgram α m n)
    : p.startingPointBy division = p.startingPoint := by
  simp only [startingPointBy, startingPoint, leastNorm, Definite.solvePair_division agrees]
  split
  · rfl
  · simp only [raise_division agrees,
      balance_division agrees (shift_raise_nonneg _) (shift_raise_nonneg _)]

end Division

-----------------------------------------------------------------------------------------
-- Least-norm solutions that need no shift
-----------------------------------------------------------------------------------------

variable [IsStrictOrderedRing α]

/-- A vector without negative entries is not raised. -/
theorem shift_raise_eq_self (hn : 0 < n) {x : Vector α n} (nonneg : 0 ≤ x.get)
    : shift x (raise x) = x := by
  refine vector_ext_get ?_
  rcases raise_cases hn x with ⟨unraised, -⟩ | ⟨-, ⟨i, negative⟩, -⟩
  · simp only [get_shift, unraised, add_zero]
  · exact absurd (nonneg i) negative.not_ge

theorem supNorm_eq_zero {x : Vector α n} (vanishes : x.get = 0)
    : supNorm x = 0 := by
  rcases Nat.eq_zero_or_pos n with rfl | hn
  · rw [supNorm, List.eq_nil_of_length_eq_zero x.length_toList, List.map_nil, foldFirst]
  · obtain ⟨i, attained⟩ := (supNorm_isGreatest hn x).1
    rw [← attained]
    simp only [vanishes, Pi.zero_apply, abs_zero]

namespace LinearProgram

/-- A point that is optimal for the program and for its dual. -/
structure IsOptimum (p : LinearProgram α m n) (y : Blocks α m n) : Prop where
  nonnegative : y.IsNonnegative
  primal : p.toMatrix *ᵥ y.x.get = p.rightSide.get
  dual : p.toMatrixᵀ *ᵥ y.lam.get + y.s.get = p.cost.get
  complementary : y.x.get ⬝ᵥ y.s.get = 0
  objective_le : ∀ x, 0 ≤ x → p.toMatrix *ᵥ x = p.rightSide.get → p.objective y ≤ p.cost.get ⬝ᵥ x

variable {p : LinearProgram α m n} {y : Blocks α m n}

/-- Least-norm solutions without negative entries are optimal. -/
theorem IsLeastNorm.isOptimum (h : p.IsLeastNorm y) (nonnegative : y.IsNonnegative)
    : p.IsOptimum y where
  nonnegative
  primal := h.primal
  dual := h.dual
  complementary := h.complementary
  objective_le := by
    intro x hx feasible
    have slack : 0 ≤ y.s.get ⬝ᵥ x := dotProduct_nonneg_of_nonneg nonnegative.s hx
    calc p.objective y = p.rightSide.get ⬝ᵥ y.lam.get := by
          rw [objective, dot_eq_dotProduct, h.objectives_eq]
      _ ≤ p.rightSide.get ⬝ᵥ y.lam.get + y.s.get ⬝ᵥ x := le_add_of_nonneg_right slack
      _ = p.cost.get ⬝ᵥ x := by
          rw [← h.dual, ← feasible, add_dotProduct, Matrix.mulVec_transpose,
            ← Matrix.dotProduct_mulVec, dotProduct_comm y.lam.get]

/-- They are the starting point. -/
theorem IsLeastNorm.balanced_eq_self (hn : 0 < n) (h : p.IsLeastNorm y)
    (nonnegative : y.IsNonnegative)
    : y.balanced = y := by
  have flat : ¬0 < dot y.x y.s := by
    rw [dot_eq_dotProduct, h.complementary]
    exact lt_irrefl 0
  simp only [Blocks.balanced, shift_raise_eq_self hn nonnegative.x,
    shift_raise_eq_self hn nonnegative.s, balance, if_neg flat]

/-- At an optimum nothing is violated and there is no gap, so it passes every test. -/
theorem IsOptimum.accepts (h : p.IsOptimum y) {config : Config α}
    (gap : 0 < config.gapTolerance)
    (feasibility : ∀ tolerance ∈ config.feasibilityTolerance, 0 < tolerance)
    : relativeGap (p.objective y) (p.dualObjective y) = 0
      ∧ config.accepts (p.residual y) (relativeGap (p.objective y) (p.dualObjective y)) := by
  have objectives : relativeGap (p.objective y) (p.dualObjective y) = 0 := by
    rw [relativeGap_eq_zero_iff, objective, dualObjective, dot_eq_dotProduct, dot_eq_dotProduct,
      ← h.dual, ← h.primal, add_dotProduct, dotProduct_comm y.s.get, h.complementary, add_zero,
      Matrix.mulVec_transpose, ← Matrix.dotProduct_mulVec, dotProduct_comm]
  have primal : (p.residual y).primalNorm = 0 :=
    supNorm_eq_zero (by rw [p.residual_lam, h.primal, sub_self])
  have dual : (p.residual y).dualNorm = 0 :=
    supNorm_eq_zero (by rw [p.residual_x, h.dual, sub_self])
  refine ⟨objectives, (config.accepts_iff _ _).mpr ⟨by rwa [objectives], ?_⟩⟩
  intro tolerance asked
  rw [primal, dual]
  exact ⟨feasibility tolerance asked, feasibility tolerance asked⟩

end LinearProgram

-----------------------------------------------------------------------------------------
-- The guarantees
-----------------------------------------------------------------------------------------

/-- Every solve with positive tolerances and a pass to spend ends with a point that it starts from,
without a gap, unless its observer breaks it off.
-/
def State.ReturnsAtOnce (p : LinearProgram α m n) (y : Blocks α m n) : Prop :=
  ∀ {σ ε : Type} {engine : Engine α σ} (config : Config α) (watch : Watch α ε m n)
    (st : State engine m n),
    0 < config.gapTolerance
    → (∀ tolerance ∈ config.feasibilityTolerance, 0 < tolerance)
    → 1 ≤ config.iterationLimit
    → (∀ e, ¬watch.BreaksOff e)
    → ∃ r,
        (st.solve p config watch).1 = .converged r
        ∧ r.point = y
        ∧ r.iterations = 0
        ∧ r.gap = 0

theorem LinearProgram.IsOptimum.returnsAtOnce {p : LinearProgram α m n} {y : Blocks α m n}
    (h : p.IsOptimum y) (start : p.startingPoint = .ok y)
    : State.ReturnsAtOnce p y := by
  intro σ ε engine config watch st gap feasibility limit calm
  obtain ⟨none_left, accepted⟩ := h.accepts gap feasibility
  have ends := State.endsAtStart_of_accepts watch start accepted st
  rcases ends.ending with ⟨r, converged, point, iterations, r_gap⟩ | ⟨zero, -⟩ | ⟨e, -, wanted⟩
  · exact ⟨r, converged, point, iterations, r_gap.trans none_left⟩
  · omega
  · exact absurd wanted (calm e)

namespace LinearProgram

/-- What holds of the starting point that is made of least-norm solutions. -/
structure StartsSafely (p : LinearProgram α m n) (least y : Blocks α m n) : Prop where
  nonnegative : y.IsNonnegative
  divisors
    : 0 < dot (shift least.x (raise least.x)) (shift least.s (raise least.s))
      → total (shift least.x (raise least.x)) ≠ 0 ∧ total (shift least.s (raise least.s)) ≠ 0
  interior
    : 0 < dot (shift least.x (raise least.x)) (shift least.s (raise least.s)) → y.IsInterior
  optimal
    : 0 ≤ least.x.get
      → 0 ≤ least.s.get
      → y = least ∧ p.IsOptimum y ∧ State.ReturnsAtOnce p y

/-- What holds of a program without a starting point: a factorization is blamed for it, and neither
setting a solver to the starting point nor solving moves the solver.
-/
structure RefusesStart (p : LinearProgram α m n) (fault : Definite.Fault) : Prop where
  kind : fault.kind = .factorization
  toStart
    : ∀ {σ : Type} {engine : Engine α σ} (st : State engine m n), st.toStart p = .error fault
  solve
    : ∀ {σ ε : Type} {engine : Engine α σ} (config : Config α) (watch : Watch α ε m n)
        (st : State engine m n),
        (st.solve p config watch).1 = .failed (.start fault)
        ∧ (st.solve p config watch).2.1.point = st.point

theorem refusesStart {p : LinearProgram α m n} {fault : Definite.Fault}
    (refused : p.startingPoint = .error fault)
    : p.RefusesStart fault where
  kind := by
    rcases p.startingPoint_cases with ⟨-, y, -, -, start⟩ | ⟨-, order, found⟩
    · rw [start] at refused
      cases refused
    · rw [found] at refused
      obtain rfl := Except.error.inj refused
      rfl
  toStart := by
    intro σ engine st
    rw [State.toStart, refused]
    rfl
  solve := by
    intro σ ε engine config watch st
    rw [State.solve_unstarted refused]
    exact ⟨rfl, rfl⟩

theorem IsLeastNorm.startsSafely (hn : 0 < n) {p : LinearProgram α m n} {least : Blocks α m n}
    (h : p.IsLeastNorm least) (start : p.startingPoint = .ok least.balanced)
    : p.StartsSafely least least.balanced := by
  have hx := shift_raise_nonneg least.x
  have hs := shift_raise_nonneg least.s
  constructor
  · exact startingPoint_isNonnegative start
  · intro positive
    have exchanged := positive
    rw [dot_eq_dotProduct, dotProduct_comm, ← dot_eq_dotProduct] at exchanged
    exact ⟨(total_pos_of_dot_pos hx positive).ne', (total_pos_of_dot_pos hs exchanged).ne'⟩
  · intro positive
    obtain ⟨x, s⟩ := balance_pos hx hs positive
    exact ⟨x, s⟩
  · intro x s
    have same := h.balanced_eq_self hn ⟨x, s⟩
    have optimum := h.isOptimum ⟨x, s⟩
    rw [same] at start ⊢
    exact ⟨rfl, optimum, optimum.returnsAtOnce start⟩

/-- There is a starting point unless the rows are dependent, and either way a caller knows what to
expect. No division by zero has a part in it.
-/
theorem startingPoint_isSafe (p : LinearProgram α m n) (hn : 0 < n)
    : ((∃ fault, p.startingPoint = .error fault) ↔ ¬LinearIndependent α p.toMatrix.row)
      ∧ (∀ fault, p.startingPoint = .error fault → p.RefusesStart fault)
      ∧ (∀ division, IsDivisionOffZero division → p.startingPointBy division = p.startingPoint)
      ∧ (LinearIndependent α p.toMatrix.row
          → ∃ least y,
              p.leastNorm = .ok least
              ∧ p.IsLeastNorm least
              ∧ p.startingPoint = .ok y
              ∧ p.StartsSafely least y) := by
  refine ⟨?_, fun fault => refusesStart, fun division agrees => startingPointBy_eq agrees p, ?_⟩
  · rcases p.startingPoint_cases with ⟨independent, y, -, -, start⟩ | ⟨dependent, order, refused⟩
    · rw [start]
      exact iff_of_false (by simp) (not_not.mpr independent)
    · exact iff_of_true ⟨_, refused⟩ dependent
  · intro independent
    rcases p.startingPoint_cases with ⟨-, least, found, h, start⟩ | ⟨dependent, -⟩
    · exact ⟨least, least.balanced, found, h, start, h.startsSafely hn start⟩
    · exact absurd independent dependent

/-- One equation for one of two variables: neither least-norm solution needs a shift. -/
def corner : LinearProgram ℚ 1 2 where
  matrix := .ofMatrix !![1, 0]
  rightSide := .replicate 1 1
  cost := .replicate 2 1

/-- Its least-norm solutions are optimal, and a new solver returns them. -/
theorem startingPoint_isSafe_corner
    : LinearIndependent ℚ corner.toMatrix.row
      ∧ ∃ least y r,
          corner.leastNorm = .ok least
          ∧ corner.startingPoint = .ok y
          ∧ corner.IsOptimum y
          ∧ ((State.initial corner (.fresh (Direct.engine .dense) ())).solve corner .sample
              (.silent : Watch ℚ Empty 1 2)).1 = .converged r
          ∧ r.point = least
          ∧ r.iterations = 0
          ∧ r.gap = 0 := by
  have independent : LinearIndependent ℚ corner.toMatrix.row :=
    independent_of_entry 0 (by decide +kernel)
  obtain ⟨-, -, -, starts⟩ := startingPoint_isSafe corner (by decide)
  obtain ⟨least, y, found, -, start, safe⟩ := starts independent
  have parts : corner.leastNorm.toOption.getD (.filled 0) = least := by
    rw [found]
    rfl
  have x : ∀ i, 0 ≤ least.x.get i := by
    rw [← parts]
    decide +kernel
  have s : ∀ i, 0 ≤ least.s.get i := by
    rw [← parts]
    decide +kernel
  obtain ⟨same, optimum, returns⟩ := safe.optimal x s
  obtain ⟨r, converged, point, iterations, gap⟩ := returns .sample (.silent : Watch ℚ Empty 1 2)
    (State.initial corner (.fresh (Direct.engine .dense) ())) (by decide +kernel)
    (by decide +kernel) (by decide +kernel) (by rintro _ ⟨_, ⟨⟩, -⟩)
  exact ⟨independent, least, y, r, found, start, optimum, converged, point.trans same, iterations,
    gap⟩

end LinearProgram

end InteriorPoint
