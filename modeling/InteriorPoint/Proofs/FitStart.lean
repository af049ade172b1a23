import InteriorPoint.Proofs.LeastNorm
import InteriorPoint.Proofs.NearOptimality
import InteriorPoint.Proofs.NoBreakdown

/-! Which starting points are fit to iterate from. The balancing shifts are left out where the
raised vectors have no complementarity; then one of them vanishes, and whether a solve stops there
depends on what raising the other one did to the objective.
-/

namespace InteriorPoint

open scoped Matrix

variable {α σ ε : Type} [Field α] [LinearOrder α] [IsStrictOrderedRing α]
  {engine : Engine α σ} {m n : Nat}

-----------------------------------------------------------------------------------------
-- Raising and balancing
-----------------------------------------------------------------------------------------

section Shifts

/-- A vector is raised if it has a negative entry, and then all of its entries end up positive. -/
theorem raise_cases (hn : 0 < n) (x : Vector α n)
    : (raise x = 0 ∧ 0 ≤ x.get)
      ∨ (0 < raise x ∧ (∃ i, x.get i < 0) ∧ ∀ i, 0 < (shift x (raise x)).get i) := by
  obtain ⟨⟨k, attained⟩, below⟩ := least_isLeast hn x
  have amount : raise x = max (-(3 / 2) * least x) 0 := by
    rw [raise, firstMax_eq_max, startShift]
    norm_num
  rcases le_or_gt 0 (least x) with sign | sign
  · left
    constructor
    · rw [amount]
      exact max_eq_right (by linarith)
    · intro i
      exact sign.trans (below ⟨i, rfl⟩)
  · right
    have raised : raise x = -(3 / 2) * least x := by
      rw [amount]
      exact max_eq_left (by linarith)
    refine ⟨by linarith, ⟨k, attained ▸ sign⟩, fun i => ?_⟩
    have entry : least x ≤ x.get i := below ⟨i, rfl⟩
    rw [get_shift]
    linarith

/-- A vector that is not negative has a positive total if its product with any other is positive. -/
theorem total_pos_of_dot_pos {v w : Vector α n} (hv : 0 ≤ v.get) (product : 0 < dot v w)
    : 0 < total v := by
  refine lt_of_le_of_ne (total_nonneg hv) fun zero => product.ne' ?_
  rw [total_eq_sum] at zero
  have vanish (i : Fin n) : v.get i = 0 :=
    (Finset.sum_eq_zero_iff_of_nonneg fun i _ => hv i).mp zero.symm i (Finset.mem_univ i)
  rw [dot_eq_dotProduct, dotProduct]
  exact Finset.sum_eq_zero fun i _ => by rw [vanish i, zero_mul]

/-- Vectors with a positive product become positive when they are balanced. -/
theorem balance_pos {x s : Vector α n} (hx : 0 ≤ x.get) (hs : 0 ≤ s.get)
    (positive : 0 < dot x s)
    : (∀ i, 0 < (balance x s).1.get i) ∧ ∀ i, 0 < (balance x s).2.get i := by
  have exchanged : 0 < dot s x := by
    rwa [dot_eq_dotProduct, dotProduct_comm, ← dot_eq_dotProduct]
  have half : (0 : α) < startBalance := by
    unfold startBalance
    positivity
  simp only [balance, if_pos positive, get_shift]
  constructor
  · intro i
    exact add_pos_of_nonneg_of_pos (hx i)
      (div_pos (mul_pos half positive) (total_pos_of_dot_pos hs exchanged))
  · intro i
    exact add_pos_of_nonneg_of_pos (hs i)
      (div_pos (mul_pos half positive) (total_pos_of_dot_pos hx positive))

/-- Entries that are not negative have a product of zero only if each pair has. -/
theorem mul_eq_zero_of_dotProduct {x s : Fin n → α} (hx : 0 ≤ x) (hs : 0 ≤ s)
    (zero : x ⬝ᵥ s = 0) (i : Fin n)
    : x i * s i = 0 :=
  (Finset.sum_eq_zero_iff_of_nonneg fun i _ => mul_nonneg (hx i) (hs i)).mp zero i
    (Finset.mem_univ i)

/-- Where nothing is left to balance, the one vector was only raised if the other one is zero. -/
theorem eq_zero_of_unbalanced (hn : 0 < n) {x s : Vector α n}
    (unbalanced : dot (shift x (raise x)) (shift s (raise s)) = 0) (raised : raise x ≠ 0)
    : s.get = 0 := by
  rw [dot_eq_dotProduct] at unbalanced
  have products :=
    mul_eq_zero_of_dotProduct (shift_raise_nonneg x) (shift_raise_nonneg s) unbalanced
  rcases raise_cases hn x with ⟨zero, -⟩ | ⟨-, -, positive⟩
  · exact absurd zero raised
  · have vanish (i : Fin n) : (shift s (raise s)).get i = 0 :=
      (mul_eq_zero.mp (products i)).resolve_left (positive i).ne'
    rcases raise_cases hn s with ⟨zero, -⟩ | ⟨-, -, positive⟩
    · funext i
      have entry := vanish i
      simp only [get_shift, zero, add_zero] at entry
      exact entry
    · exact absurd (vanish ⟨0, hn⟩) (positive _).ne'

theorem relativeGap_eq_zero_iff {primal dual : α}
    : relativeGap primal dual = 0 ↔ primal = dual := by
  have positive : 0 < 1 + |primal| := by positivity
  rw [relativeGap_eq, div_eq_zero_iff, or_iff_left positive.ne', abs_eq_zero, sub_eq_zero]

end Shifts

-----------------------------------------------------------------------------------------
-- Which programs have a starting point without slacks and with a gap
-----------------------------------------------------------------------------------------

namespace LinearProgram

/-- The costs are a combination of the rows, so that there are no slacks; the least-norm solution
of the primal equations has a negative entry, so that it is raised; and raising it changes the
objective.
-/
structure Stalls (p : LinearProgram α m n) : Prop where
  combined : ∃ lam, p.toMatrixᵀ *ᵥ lam = p.cost.get
  raised
    : ∃ d, p.toMatrix *ᵥ (p.toMatrixᵀ *ᵥ d) = p.rightSide.get ∧ ∃ i, (p.toMatrixᵀ *ᵥ d) i < 0
  priced : ∑ i, p.cost.get i ≠ 0

variable {p : LinearProgram α m n}

/-- The conditions say of the least-norm solutions themselves what they say of the program. -/
theorem IsLeastNorm.stalls_iff {y : Blocks α m n} (h : p.IsLeastNorm y)
    : p.Stalls ↔ y.s.get = 0 ∧ (∃ i, y.x.get i < 0) ∧ ∑ i, p.cost.get i ≠ 0 := by
  obtain ⟨e, spanned⟩ := h.combination
  constructor
  · rintro ⟨⟨lam, combined⟩, ⟨d, solved, negative⟩, priced⟩
    have slack : y.s.get = p.toMatrixᵀ *ᵥ (lam - y.lam.get) := by
      rw [Matrix.mulVec_sub, combined, ← h.dual, add_sub_cancel_left]
    have variables_eq : p.toMatrixᵀ *ᵥ (d - e) = 0 := by
      refine combination_eq_zero ?_
      rw [Matrix.mulVec_sub, Matrix.mulVec_sub, solved, ← spanned, h.primal, sub_self]
    refine ⟨?_, ?_, priced⟩
    · rw [slack]
      exact combination_eq_zero (slack ▸ h.orthogonal)
    · rw [Matrix.mulVec_sub, sub_eq_zero] at variables_eq
      rwa [variables_eq, ← spanned] at negative
  · rintro ⟨slack, negative, priced⟩
    refine ⟨⟨y.lam.get, ?_⟩, ⟨e, ?_, ?_⟩, priced⟩
    · rw [← h.dual, slack, add_zero]
    · rw [← spanned, h.primal]
    · rwa [← spanned]

omit [LinearOrder α] [IsStrictOrderedRing α] in
/-- Raising the variables of a least-norm solution changes its objective by the sum of the costs,
and nothing else opens a gap.
-/
theorem IsLeastNorm.gap_shift {y : Blocks α m n} (h : p.IsLeastNorm y) (d : α)
    : p.cost.get ⬝ᵥ (shift y.x d).get
      = p.rightSide.get ⬝ᵥ y.lam.get + d * ∑ i, p.cost.get i := by
  have split : (shift y.x d).get = y.x.get + fun _ => d := by
    rw [get_shift]
    rfl
  rw [split, dotProduct_add, h.objectives_eq]
  congr 1
  rw [dotProduct, Finset.mul_sum]
  exact Finset.sum_congr rfl fun i _ => mul_comm ..

/-- A program that stalls has no slacks to raise either. -/
theorem IsLeastNorm.raised_slack_eq_zero (hn : 0 < n) {y : Blocks α m n} (h : p.IsLeastNorm y)
    (stalls : p.Stalls)
    : (shift y.s (raise y.s)).get = 0 := by
  obtain ⟨slack, -⟩ := h.stalls_iff.mp stalls
  have unraised : raise y.s = 0 := by
    rcases raise_cases hn y.s with ⟨zero, -⟩ | ⟨-, ⟨i, negative⟩, -⟩
    · exact zero
    · rw [slack] at negative
      exact absurd negative (lt_irrefl 0)
  funext i
  rw [get_shift, unraised, slack]
  exact add_zero _

/-- The starting point is in the interior or without a gap, unless the program stalls; then it has
no slacks.
-/
theorem IsLeastNorm.startingPoint_cases (hn : 0 < n) {least : Blocks α m n}
    (found : p.leastNorm = .ok least) (h : p.IsLeastNorm least)
    : ∃ y,
        p.startingPoint = .ok y
        ∧ ((y.IsInterior ∨ relativeGap (p.objective y) (p.dualObjective y) = 0) ↔ ¬p.Stalls)
        ∧ (p.Stalls → y.s.get = 0) := by
  let x := shift least.x (raise least.x)
  let s := shift least.s (raise least.s)
  have hx : 0 ≤ x.get := shift_raise_nonneg least.x
  have hs : 0 ≤ s.get := shift_raise_nonneg least.s
  have vanishes (stalls : p.Stalls) : s.get = 0 := h.raised_slack_eq_zero hn stalls
  refine ⟨{ x := (balance x s).1, lam := least.lam, s := (balance x s).2 }, ?_, ?_⟩
  · rw [startingPoint, found]
  rw [objective, dualObjective, relativeGap_eq_zero_iff, dot_eq_dotProduct, dot_eq_dotProduct]
  rcases lt_or_ge 0 (dot x s) with positive | nonpositive
  · have flows : ¬p.Stalls := by
      intro stalls
      rw [dot_eq_dotProduct, vanishes stalls, dotProduct_zero] at positive
      exact lt_irrefl 0 positive
    obtain ⟨x_pos, s_pos⟩ := balance_pos hx hs positive
    exact ⟨iff_of_true (.inl ⟨x_pos, s_pos⟩) flows, fun stalls => absurd stalls flows⟩
  · have unbalanced : dot x s = 0 := by
      refine le_antisymm nonpositive ?_
      rw [dot_eq_dotProduct]
      exact dotProduct_nonneg_of_nonneg hx hs
    have kept : balance x s = (x, s) := if_neg nonpositive.not_gt
    have outside : ¬Blocks.IsInterior { x, lam := least.lam, s } := by
      rintro ⟨x_pos, s_pos⟩
      have product := mul_pos (x_pos ⟨0, hn⟩) (s_pos ⟨0, hn⟩)
      rw [dot_eq_dotProduct] at unbalanced
      exact product.ne' (mul_eq_zero_of_dotProduct hx hs unbalanced _)
    rw [kept]
    refine ⟨?_, vanishes⟩
    rw [or_iff_right outside, h.gap_shift, add_eq_left, mul_eq_zero, h.stalls_iff]
    constructor
    · rintro (unraised | free) ⟨-, ⟨i, negative⟩, priced⟩
      · rcases raise_cases hn least.x with ⟨-, nonneg⟩ | ⟨raised, -⟩
        · exact absurd negative (nonneg i).not_gt
        · exact raised.ne' unraised
      · exact priced free
    · intro fit
      by_contra gap
      obtain ⟨raised, priced⟩ := not_or.mp gap
      refine fit ⟨eq_zero_of_unbalanced hn unbalanced raised, ?_, priced⟩
      rcases raise_cases hn least.x with ⟨zero, -⟩ | ⟨-, negative, -⟩
      · exact absurd zero raised
      · exact negative

end LinearProgram

-----------------------------------------------------------------------------------------
-- A solve without a gap ends where it starts
-----------------------------------------------------------------------------------------

namespace State

/-- A solve that goes no further than its starting point. The Jacobian stays as it was, and the
backend is only released.
-/
structure EndsAtStart (p : LinearProgram α m n) (config : Config α) (watch : Watch α ε m n)
    (y : Blocks α m n) (st : State engine m n)
    : Prop where
  point_eq : (st.solve p config watch).2.1.point = y
  iterations_eq : (st.solve p config watch).2.1.iterations = 0
  jacobian_eq : (st.solve p config watch).2.1.jacobian = st.jacobian
  backend_eq : (st.solve p config watch).2.1.backend = st.backend.release.backend
  ending
    : (∃ r, (st.solve p config watch).1 = .converged r
          ∧ r.point = y
          ∧ r.iterations = 0
          ∧ r.gap = relativeGap (p.objective y) (p.dualObjective y))
      ∨ (config.iterationLimit = 0 ∧ (st.solve p config watch).1 = .unconverged 0 none)
      ∨ ∃ e, (st.solve p config watch).1 = .interrupted e ∧ watch.BreaksOff e

omit [IsStrictOrderedRing α] in
/-- A pass whose point passes the test notes its record and ends the run. -/
theorem pass_of_accepts {p : LinearProgram α m n} {config : Config α} (watch : Watch α ε m n)
    (iteration : Nat) (st : State engine m n)
    (accepted
      : config.accepts (p.residual st.point)
          (relativeGap (p.objective st.point) (p.dualObjective st.point)))
    : ∃ how events,
        st.pass p config watch iteration
          = (.ended how,
              { st.updateResidual p with
                history := st.history.push (st.recordAt p iteration)
                iterations := iteration },
              events)
        ∧ (how = .accepted ∨ ∃ e, how = .interrupted e ∧ watch.BreaksOff e) := by
  refine ⟨_, _, if_pos accepted, ?_⟩
  split
  · exact .inl rfl
  · next e answer => exact .inr ⟨e, rfl, Watch.breaksOff_of_observe answer⟩

omit [IsStrictOrderedRing α] in
/-- A solve whose starting point passes the test ends there. -/
theorem endsAtStart_of_accepts {p : LinearProgram α m n} {config : Config α}
    (watch : Watch α ε m n) {y : Blocks α m n} (start : p.startingPoint = .ok y)
    (accepted
      : config.accepts (p.residual y) (relativeGap (p.objective y) (p.dualObjective y)))
    (st : State engine m n)
    : st.EndsAtStart p config watch y := by
  have solved := st.solve_of_start start config watch
  cases limit : config.iterationLimit with
  | zero =>
      rw [limit, passes] at solved
      have final := congrArg (fun ended => ended.2.1) solved
      exact {
        point_eq := final ▸ rfl
        iterations_eq := final ▸ rfl
        jacobian_eq := final ▸ rfl
        backend_eq := final ▸ rfl
        ending := .inr (.inl ⟨limit, congrArg Prod.fst solved⟩)
      }
  | succ remaining =>
      obtain ⟨how, events, passed, ends⟩ := pass_of_accepts watch 0 (st.startedAt y) accepted
      rw [limit, passes, passed] at solved
      rcases ends with rfl | ⟨e, rfl, wanted⟩
      · have final := congrArg (fun ended => ended.2.1) solved
        exact {
          point_eq := final ▸ rfl
          iterations_eq := final ▸ rfl
          jacobian_eq := final ▸ rfl
          backend_eq := final ▸ rfl
          ending := .inl ⟨_, congrArg Prod.fst solved, rfl, rfl, rfl⟩
        }
      · have final := congrArg (fun ended => ended.2.1) solved
        exact {
          point_eq := final ▸ rfl
          iterations_eq := final ▸ rfl
          jacobian_eq := final ▸ rfl
          backend_eq := final ▸ rfl
          ending := .inr (.inr ⟨e, congrArg Prod.fst solved, wanted⟩)
        }

/-- With independent rows there is a starting point. It is in the interior or without a gap unless
the program stalls, and from a point without a gap a solve goes no further where feasibility is
not asked for.
-/
theorem startingPoint_isFit_iff (p : LinearProgram α m n) (hn : 0 < n)
    (independent : LinearIndependent α p.toMatrix.row)
    : ∃ y,
        p.startingPoint = .ok y
        ∧ ((y.IsInterior ∨ relativeGap (p.objective y) (p.dualObjective y) = 0) ↔ ¬p.Stalls)
        ∧ (p.Stalls → y.s.get = 0)
        ∧ (relativeGap (p.objective y) (p.dualObjective y) = 0
          → ∀ {σ ε : Type} {engine : Engine α σ} (config : Config α) (watch : Watch α ε m n)
              (st : State engine m n),
              config.feasibilityTolerance = none
              → 0 < config.gapTolerance
              → st.EndsAtStart p config watch y) := by
  obtain ⟨least, found, least_norm⟩ := p.exists_leastNorm independent
  obtain ⟨y, start, fit, stalled⟩ := least_norm.startingPoint_cases hn found
  refine ⟨y, start, fit, stalled, ?_⟩
  intro zero _ _ _ config watch st unasked positive
  refine endsAtStart_of_accepts watch start ?_ st
  rw [config.accepts_iff, zero, unasked]
  exact ⟨positive, by simp⟩

/-- Fifty iterations at most, and a gap below `10 ^ -8`. -/
def gapAlone : Config ℚ where
  iterationLimit := 50
  gapTolerance := 1 / 10 ^ 8
  feasibilityTolerance := none

/-- Two variables of equal cost that add up to one. -/
def equalCost : LinearProgram ℚ 1 2 where
  matrix := .ofMatrix !![1, 1]
  rightSide := #v[1]
  cost := #v[1, 1]

/-- Its starting point has neither slacks nor a gap, so a solve ends there. -/
theorem startingPoint_isFit_iff_equalCost
    : LinearIndependent ℚ equalCost.toMatrix.row
      ∧ ∃ y,
          equalCost.startingPoint = .ok y
          ∧ relativeGap (equalCost.objective y) (equalCost.dualObjective y) = 0
          ∧ ¬equalCost.Stalls
          ∧ (initial equalCost (.fresh (Direct.engine .sparse) ())).EndsAtStart equalCost gapAlone
              .silent y := by
  have independent := LinearProgram.independent_of_entry (p := equalCost) 0 (by decide +kernel)
  obtain ⟨y, start, fit, -, ends⟩ := startingPoint_isFit_iff equalCost (by decide) independent
  have gap : relativeGap (equalCost.objective y) (equalCost.dualObjective y) = 0 := by
    have measured
        : relativeGap (equalCost.objective (equalCost.startingPoint.toOption.getD (.filled 0)))
            (equalCost.dualObjective (equalCost.startingPoint.toOption.getD (.filled 0)))
          = 0 := by decide +kernel
    rwa [start] at measured
  exact ⟨independent, y, start, gap, fit.mp (.inr gap),
    ends gap gapAlone .silent _ rfl (by decide +kernel)⟩

/-- One row, whose least-norm solution has a negative entry, and the same row as the costs. -/
def opposed : LinearProgram ℚ 1 2 where
  matrix := .ofMatrix !![3, -4]
  rightSide := #v[25]
  cost := #v[3, -4]

/-- Its starting point has no slacks and a gap, and a solve fails at the first Jacobian. -/
theorem opposed_startingPoint_unfit
    : LinearIndependent ℚ opposed.toMatrix.row
      ∧ ∃ y,
          opposed.startingPoint = .ok y
          ∧ ¬y.IsInterior
          ∧ relativeGap (opposed.objective y) (opposed.dualObjective y) ≠ 0
          ∧ ((initial opposed (.fresh (Direct.engine .sparse) ())).solve opposed gapAlone
                (.silent : Watch ℚ Empty 1 2)).1
            = .failed (.step (.backend ⟨"superlu", .factorization .singular⟩)) := by
  refine ⟨LinearProgram.independent_of_entry 0 (by decide +kernel), ?_⟩
  obtain ⟨y, start⟩ := exists_ok (x := opposed.startingPoint) (by decide +kernel)
  have found : opposed.startingPoint.toOption.getD (.filled 0) = y := by
    rw [start]
    rfl
  refine ⟨y, start, ?_, ?_, Ending.eq_failed_of_backendError? (by decide +kernel)⟩
  · intro interior
    have slack : y.s.get 0 = 0 := by
      rw [← found]
      decide +kernel
    exact (interior.s 0).ne' slack
  · rw [← found]
    decide +kernel

end State

end InteriorPoint
