import InteriorPoint.Proofs.ExactElimination
import InteriorPoint.Proofs.Interior
import InteriorPoint.Proofs.Jacobian

/-! Feasibility residuals contract. With an exact engine the direction of a step takes up both
residuals, because the corrector leaves them in the right side, so each of them shrinks by what
its own length leaves; along a run the factors multiply.
-/

namespace InteriorPoint

open scoped Matrix

variable {α σ ε : Type} [Field α] {engine : Engine α σ} {m n : Nat}

-----------------------------------------------------------------------------------------
-- An exact direction takes up the feasibility residuals
-----------------------------------------------------------------------------------------

section Direction

namespace LinearProgram

/-- A direction that takes up the feasibility parts of a residual: a move against it by one would
leave nothing of them.
-/
structure TakesUp (p : LinearProgram α m n) (d r : Blocks α m n) : Prop where
  lam : p.toMatrix *ᵥ d.x.get = r.lam.get
  x : p.toMatrixᵀ *ᵥ d.lam.get + d.s.get = r.x.get

/-- The first two rows of blocks of the Jacobian say that a solution takes up the residual. -/
theorem takesUp_of_solved {p : LinearProgram α m n} {x s : Vector α n} {d r : Blocks α m n}
    (solved
      : Entries.toMatrix (p.matrix.jacobianEntries x s) *ᵥ d.flatten.get = r.flatten.get)
    : p.TakesUp d r := by
  constructor
  · funext i
    have row := congrFun solved (Blocks.lamPlace i)
    rwa [p.jacobian_mulVec_lamPlace, Blocks.flatten_get_lamPlace] at row
  · funext i
    have row := congrFun solved (Blocks.xPlace i)
    rwa [p.jacobian_mulVec_xPlace, Blocks.flatten_get_xPlace] at row

/-- What is left of the feasibility residuals between two points: a share of the primal one and a
share of the dual one.
-/
structure Contracts (p : LinearProgram α m n) (before after : Blocks α m n) (primal dual : α)
    : Prop where
  lam : (p.residual after).lam.get = primal • (p.residual before).lam.get
  x : (p.residual after).x.get = dual • (p.residual before).x.get

theorem Contracts.refl (p : LinearProgram α m n) (y : Blocks α m n)
    : p.Contracts y y 1 1 :=
  ⟨(one_smul ..).symm, (one_smul ..).symm⟩

/-- What is left of what is left. -/
theorem Contracts.trans {p : LinearProgram α m n} {y z w : Blocks α m n}
    {primal dual nextPrimal nextDual : α} (first : p.Contracts y z primal dual)
    (second : p.Contracts z w nextPrimal nextDual)
    : p.Contracts y w (primal * nextPrimal) (dual * nextDual) := by
  constructor
  · rw [second.lam, first.lam, smul_smul, mul_comm]
  · rw [second.x, first.x, smul_smul, mul_comm]

end LinearProgram

end Direction

namespace State

/-- A move against a direction that takes up the residual leaves of each part what its length
leaves: the primal part moves with the variables, the dual part with multipliers and slacks alike.
-/
theorem move_contracts {p : LinearProgram α m n} {st : State engine m n}
    (takesUp : p.TakesUp st.direction (p.residual st.point)) (primalLength dualLength : α)
    : p.Contracts st.point (st.move primalLength dualLength).point (1 - primalLength)
        (1 - dualLength) := by
  have lam := takesUp.lam
  have x := takesUp.x
  rw [p.residual_lam] at lam
  rw [p.residual_x] at x
  constructor
  · rw [p.residual_lam, p.residual_lam]
    simp only [move, get_descend, Matrix.mulVec_sub, Matrix.mulVec_smul, lam]
    module
  · rw [p.residual_x, p.residual_x]
    calc p.toMatrixᵀ *ᵥ (st.move primalLength dualLength).point.lam.get
          + (st.move primalLength dualLength).point.s.get - p.cost.get
        = p.toMatrixᵀ *ᵥ st.point.lam.get + st.point.s.get - p.cost.get
          - dualLength • (p.toMatrixᵀ *ᵥ st.direction.lam.get + st.direction.s.get) := by
            simp only [move, get_descend, Matrix.mulVec_sub, Matrix.mulVec_smul]
            module
      _ = (1 - dualLength)
          • (p.toMatrixᵀ *ᵥ st.point.lam.get + st.point.s.get - p.cost.get) := by
            rw [x]
            module

-----------------------------------------------------------------------------------------
-- Both solves of a step use the same factors
-----------------------------------------------------------------------------------------

section Step

variable [LinearOrder α]

/-- A solve for the direction with factors of the Jacobian at any point takes up the feasibility
parts of the residual at hand: that point is in the rows of the slacks alone.
-/
theorem solveDirection_takesUp (exact : engine.IsExact) {p : LinearProgram α m n}
    {y : Blocks α m n} {st next : State engine m n} {notices : List Notice}
    (factored : st.HasFactorsAt p y) (h : st.solveDirection = (.ok (), next, notices))
    : p.TakesUp next.direction st.residual := by
  obtain ⟨t, jacobian, target, factors, before, after, assembled, made, phase⟩ := factored
  obtain ⟨d, answered, rfl⟩ := solveDirection_ok h
  obtain ⟨left, solved⟩ := Backend.solve_ok phase answered
  have solution := exact jacobian before after factors made _ _ _ _ solved
  rw [LinearProgram.entries_of_assemble assembled, ← Blocks.flatten_ofFlat d] at solution
  exact LinearProgram.takesUp_of_solved solution

/-- A step from a prepared state contracts the feasibility residuals by its lengths. -/
theorem step_contracts (exact : engine.IsExact) {p : LinearProgram α m n}
    {st next : State engine m n} (prepared : st.IsPrepared p) {mu : α} {taken : Step α}
    {notices : List Notice} (h : st.step mu = (.ok taken, next, notices))
    : p.Contracts st.point next.point (1 - taken.primalLength) (1 - taken.dualLength) := by
  obtain ⟨predicted, corrected, _, _, first, -, second, -, -, rfl⟩ := step_ok h
  obtain ⟨d, -, rfl⟩ := solveDirection_ok first
  -- The first solve leaves the factors, and the corrector the feasibility parts of the residual.
  have factored
      : (State.correct { st with
            direction := .ofFlat d
            backend := (st.backend.solve false st.residual.flatten).backend }
          taken.sigma mu).HasFactorsAt p st.point := by
    obtain ⟨t, jacobian, target, factors, before, after, assembled, made, phase⟩ :=
      prepared.factored
    exact ⟨t, jacobian, target, factors, before, after, assembled, made,
      (Backend.phase_solve ..).trans phase⟩
  have takesUp : p.TakesUp corrected.direction (p.residual st.point) := by
    have final := solveDirection_takesUp exact factored second
    rw [← prepared.residual_eq]
    exact ⟨final.lam, final.x⟩
  obtain ⟨e, -, rfl⟩ := solveDirection_ok second
  exact move_contracts takesUp taken.primalLength taken.dualLength

end Step

end State

-----------------------------------------------------------------------------------------
-- Along a run the factors of the records multiply
-----------------------------------------------------------------------------------------

section Run

variable [LinearOrder α] [IsStrictOrderedRing α]

/-- What the pass of a record left of the primal residual; without a step that is all of it. -/
def Record.primalFactor (record : Record α) : α :=
  match record.step with
  | none => 1
  | some taken => 1 - taken.primalLength

/-- What the pass of a record left of the dual residual; without a step that is all of it. -/
def Record.dualFactor (record : Record α) : α :=
  match record.step with
  | none => 1
  | some taken => 1 - taken.dualLength

namespace LinearProgram

/-- A residual of which at most all is left has not grown in norm. -/
theorem Contracts.primalNorm_le {p : LinearProgram α m n} {y z : Blocks α m n} {primal dual : α}
    (h : p.Contracts y z primal dual) (share : primal ∈ Set.Icc 0 1)
    : (p.residual z).primalNorm ≤ (p.residual y).primalNorm :=
  supNorm_le_of_eq_smul share h.lam

theorem Contracts.dualNorm_le {p : LinearProgram α m n} {y z : Blocks α m n} {primal dual : α}
    (h : p.Contracts y z primal dual) (share : dual ∈ Set.Icc 0 1)
    : (p.residual z).dualNorm ≤ (p.residual y).dualNorm :=
  supNorm_le_of_eq_smul share h.x

end LinearProgram

namespace State

/-- A pass that finds the backend bound to the Jacobian contracts the feasibility residuals by the
factors of the record that it notes, which lie between zero and one.
-/
theorem PassCase.contracts (exact : engine.IsExact) {p : LinearProgram α m n} {config : Config α}
    {iteration : Nat} {st next : State engine m n} {outcome : Pass α ε}
    (hy : st.point.IsNonnegative)
    (bound : iteration = 0 ∨ st.backend.target? = some .jacobian)
    (h : PassCase p config iteration st outcome next)
    : ∃ record,
        next.history = st.history.push record
        ∧ p.Contracts st.point next.point record.primalFactor record.dualFactor
        ∧ record.primalFactor ∈ Set.Icc 0 1
        ∧ record.dualFactor ∈ Set.Icc 0 1 := by
  have whole : (1 : α) ∈ Set.Icc 0 1 := ⟨zero_le_one, le_rfl⟩
  cases h with
  | stopped _ _ next_eq =>
      subst next_eq
      exact ⟨_, rfl, .refl p st.point, whole, whole⟩
  | failed _ _ point_eq history_eq =>
      refine ⟨_, history_eq, ?_, whole, whole⟩
      rw [point_eq]
      exact .refl p st.point
  | moved ready after taken _ ready_point prepared _ step_eq _ point_eq history_eq =>
      have inside := step_staysInside (ready_point ▸ hy) step_eq
      refine ⟨_, history_eq, ?_, ?_, ?_⟩
      · have contracts := step_contracts exact (prepared bound) step_eq
        rw [ready_point] at contracts
        rw [point_eq]
        exact contracts
      · exact ⟨sub_nonneg.mpr inside.primalLength_le_one,
          sub_le_self 1 inside.primalLength_nonneg⟩
      · exact ⟨sub_nonneg.mpr inside.dualLength_le_one, sub_le_self 1 inside.dualLength_nonneg⟩

/-- After any number of passes there is left of the first residuals what the factors of all the
records multiply to.
-/
theorem contracts_afterPasses (exact : engine.IsExact) {p : LinearProgram α m n}
    {y : Blocks α m n} (start : p.startingPoint = .ok y) (config : Config α)
    (watch : Watch α ε m n) (st : State engine m n) (k : Nat)
    : p.Contracts y (st.afterPasses p config watch y k).point
        ((st.afterPasses p config watch y k).history.toList.map Record.primalFactor).prod
        ((st.afterPasses p config watch y k).history.toList.map Record.dualFactor).prod := by
  induction k with
  | zero => exact .refl p y
  | succ k ih =>
      rcases st.afterPasses_succ p config watch y k with same | onward
      · rw [same]
        exact ih
      · obtain ⟨_, passed⟩ := onward.passed
        have nonneg := isNonnegative_afterPasses start config watch st k
        obtain ⟨record, history, contracts, -, -⟩ := passed.contracts exact nonneg onward.bound
        rw [history, Array.toList_push, List.map_append, List.map_append, List.prod_append,
          List.prod_append]
        simpa using ih.trans contracts

/-- From one pass of a solve to any later one some shares of both residuals are left, by
induction on the passes between them.
-/
theorem exists_contracts_afterPasses (exact : engine.IsExact) {p : LinearProgram α m n}
    {y : Blocks α m n} (start : p.startingPoint = .ok y) (config : Config α)
    (watch : Watch α ε m n) (st : State engine m n) {j k : Nat} (le : j ≤ k)
    : ∃ primal ∈ Set.Icc (0 : α) 1,
        ∃ dual ∈ Set.Icc (0 : α) 1,
          p.Contracts (st.afterPasses p config watch y j).point
            (st.afterPasses p config watch y k).point primal dual := by
  induction k, le using Nat.le_induction with
  | base => exact ⟨1, ⟨zero_le_one, le_rfl⟩, 1, ⟨zero_le_one, le_rfl⟩, .refl p _⟩
  | succ k le ih =>
      rcases st.afterPasses_succ p config watch y k with same | onward
      · rw [same]
        exact ih
      · obtain ⟨_, passed⟩ := onward.passed
        have nonneg := isNonnegative_afterPasses start config watch st k
        obtain ⟨primal, hp, dual, hd, before⟩ := ih
        obtain ⟨record, -, contracts, nextPrimal, nextDual⟩ :=
          passed.contracts exact nonneg onward.bound
        exact ⟨_, ⟨mul_nonneg hp.1 nextPrimal.1, mul_le_one₀ hp.2 nextPrimal.1 nextPrimal.2⟩, _,
          ⟨mul_nonneg hd.1 nextDual.1, mul_le_one₀ hd.2 nextDual.1 nextDual.2⟩,
          before.trans contracts⟩

/-- How a solve that starts at a point treats the feasibility residuals of the points that it goes
through. The first `k` records multiply to what is left of the residuals after `k` passes; norms
do not grow from any pass to a later one; and an entry that is zero stays zero.
-/
structure SolveContracts (p : LinearProgram α m n) (config : Config α) (watch : Watch α ε m n)
    (y : Blocks α m n) (st : State engine m n)
    : Prop
    extends st.GoesThrough p config watch y where
  contracts
    : ∀ k ≤ config.iterationLimit,
        p.Contracts y (st.afterPasses p config watch y k).point
          (((st.solve p config watch).2.1.history.toList.take k).map Record.primalFactor).prod
          (((st.solve p config watch).2.1.history.toList.take k).map Record.dualFactor).prod
  primalNorm_antitone
    : Antitone fun k => (p.residual (st.afterPasses p config watch y k).point).primalNorm
  dualNorm_antitone
    : Antitone fun k => (p.residual (st.afterPasses p config watch y k).point).dualNorm
  lam_eq_zero
    : ∀ j k, j ≤ k
      → ∀ i, (p.residual (st.afterPasses p config watch y j).point).lam.get i = 0
        → (p.residual (st.afterPasses p config watch y k).point).lam.get i = 0
  x_eq_zero
    : ∀ j k, j ≤ k
      → ∀ i, (p.residual (st.afterPasses p config watch y j).point).x.get i = 0
        → (p.residual (st.afterPasses p config watch y k).point).x.get i = 0

/-- With an exact engine every step from a prepared state contracts the feasibility residuals by
its lengths, and so does every solve, record by record.
-/
theorem feasibility_contracts (exact : engine.IsExact) (p : LinearProgram α m n)
    (config : Config α) (watch : Watch α ε m n)
    : (∀ (st next : State engine m n) (mu : α) (taken : Step α) (notices : List Notice),
        st.IsPrepared p
        → st.step mu = (.ok taken, next, notices)
        → p.Contracts st.point next.point (1 - taken.primalLength) (1 - taken.dualLength))
      ∧ ∀ (st : State engine m n) (y : Blocks α m n),
          p.startingPoint = .ok y → st.SolveContracts p config watch y := by
  refine ⟨fun st next mu taken notices prepared done => step_contracts exact prepared done, ?_⟩
  intro st y start
  have left {j k : Nat} (le : j ≤ k) :=
    exists_contracts_afterPasses exact start config watch st le
  have through := st.goesThrough p config watch y start
  exact {
    toGoesThrough := through
    contracts := by
      intro k le
      rw [through.history_eq, st.take_history_afterPasses p config watch y le]
      exact contracts_afterPasses exact start config watch st k
    primalNorm_antitone := by
      intro j k le
      obtain ⟨primal, share, _, -, contracts⟩ := left le
      exact contracts.primalNorm_le share
    dualNorm_antitone := by
      intro j k le
      obtain ⟨_, -, dual, share, contracts⟩ := left le
      exact contracts.dualNorm_le share
    lam_eq_zero := by
      intro j k le i vanished
      obtain ⟨primal, -, _, -, contracts⟩ := left le
      rw [contracts.lam, Pi.smul_apply, vanished, smul_zero]
    x_eq_zero := by
      intro j k le i vanished
      obtain ⟨_, -, dual, -, contracts⟩ := left le
      rw [contracts.x, Pi.smul_apply, vanished, smul_zero]
  }

/-- The sample state is prepared: its Jacobian is assembled into an empty one with full room. -/
theorem samplePrepared_isPrepared
    : samplePrepared.IsPrepared .sample := by
  have assembled := LinearProgram.sample.assemble_eq samplePlaced.point
    (t := samplePlaced.jacobian) (by decide +kernel)
  let placed := (samplePlaced.updateJacobian .sample).toOption.getD samplePlaced
  obtain ⟨_, done⟩ := exists_ok (x := (placed.prepare 0 false).1) (by decide +kernel)
  have prepared : placed.prepare 0 false = (.ok (), samplePrepared, (placed.prepare 0 false).2.2) :=
    Prod.ext done rfl
  simp only [placed, updateJacobian, assembled, Except.map, Except.toOption, Option.getD_some]
    at prepared
  exact (isPrepared_of_prepare rfl assembled prepared (.inl rfl)).1

/-- A step from the prepared state, and a solve of the sample program. -/
theorem feasibility_contracts_sample
    : (∃ next taken notices,
        samplePrepared.step 1 = (.ok taken, next, notices)
        ∧ LinearProgram.sample.Contracts samplePrepared.point next.point
            (1 - taken.primalLength) (1 - taken.dualLength))
      ∧ ∃ y, LinearProgram.sample.startingPoint = .ok y
          ∧ sample.SolveContracts .sample .sample .silent y := by
  obtain ⟨step, solve⟩ := feasibility_contracts (Direct.engine_isExact .dense) .sample .sample
    .silent
  obtain ⟨taken, done⟩ := exists_ok (x := (samplePrepared.step 1).1) (by decide +kernel)
  obtain ⟨y, start⟩ := exists_ok (x := LinearProgram.sample.startingPoint) (by decide +kernel)
  exact ⟨⟨_, taken, _, Prod.ext done rfl, step _ _ _ _ _ samplePrepared_isPrepared
    (Prod.ext done rfl)⟩, y, start, solve sample y start⟩

end State

end Run

end InteriorPoint
