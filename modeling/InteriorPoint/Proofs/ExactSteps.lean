import InteriorPoint.Proofs.Contraction
import InteriorPoint.Proofs.Nonsingular

/-! Steps with exact factors. Both directions of a step are then solutions of the Newton system of
its point, the affine one for the residual there and the final one for the corrected residual, so
the whole step is known from these two directions.
-/

namespace InteriorPoint

open scoped Matrix

variable {α σ : Type} {engine : Engine α σ} {m n : Nat}

-----------------------------------------------------------------------------------------
-- The Newton system of a point
-----------------------------------------------------------------------------------------

/-- A point is known from its long vector. -/
theorem Blocks.eq_of_flatten_get {y z : Blocks α m n} (same : y.flatten.get = z.flatten.get)
    : y = z := by
  rw [← y.ofFlat_flatten, ← z.ofFlat_flatten, vector_ext_get same]

namespace LinearProgram

variable [Field α]

/-- The duality measure at a point. -/
def measureAt (p : LinearProgram α m n) (y : Blocks α m n) : α :=
  (p.measures y (p.residual y)).mu

/-- A direction that solves the Newton system of a point: it takes up the feasibility parts of the
right side, and to first order it changes the products of variables and slacks by the rest.
-/
structure SolvesNewton (p : LinearProgram α m n) (y d r : Blocks α m n) : Prop
    extends p.TakesUp d r where
  s : y.s.get * d.x.get + y.x.get * d.s.get = r.s.get

/-- The Jacobian at a point is nonsingular. -/
def IsRegularAt (p : LinearProgram α m n) (y : Blocks α m n) : Prop :=
  (Entries.toMatrix (p.matrix.jacobianEntries y.x y.s)).det ≠ 0

variable {p : LinearProgram α m n} {y d e r : Blocks α m n}

/-- The Jacobian at the point is the matrix of that system. -/
theorem solvesNewton_iff
    : Entries.toMatrix (p.matrix.jacobianEntries y.x y.s) *ᵥ d.flatten.get = r.flatten.get
      ↔ p.SolvesNewton y d r := by
  constructor
  · intro solved
    refine ⟨takesUp_of_solved solved, funext fun i => ?_⟩
    have row := congrFun solved (Blocks.sPlace i)
    rwa [p.jacobian_mulVec_sPlace, Blocks.flatten_get_sPlace] at row
  · intro solves
    funext k
    cases k using Blocks.placeCases with
    | x i =>
        rw [p.jacobian_mulVec_xPlace, Blocks.flatten_get_xPlace, ← solves.x]
        rfl
    | lam i => rw [p.jacobian_mulVec_lamPlace, Blocks.flatten_get_lamPlace, ← solves.lam]
    | s i =>
        rw [p.jacobian_mulVec_sPlace, Blocks.flatten_get_sPlace, ← solves.s]
        rfl

/-- With a nonsingular Jacobian there is no second solution. -/
theorem SolvesNewton.unique (regular : p.IsRegularAt y) (first : p.SolvesNewton y d r)
    (second : p.SolvesNewton y e r)
    : d = e := by
  have injective := Matrix.mulVec_injective_iff_isUnit.mpr
    ((Matrix.isUnit_iff_isUnit_det _).mpr regular.isUnit)
  refine Blocks.eq_of_flatten_get (injective ?_)
  exact (solvesNewton_iff.mpr first).trans (solvesNewton_iff.mpr second).symm

/-- If only the zero direction solves the system without a right side, the Jacobian is
nonsingular.
-/
theorem isRegularAt_of_kernel
    (kernel : ∀ d, p.SolvesNewton y d (.filled 0) → d = .filled 0)
    : p.IsRegularAt y := by
  have zero : (Blocks.filled 0 : Blocks α m n).flatten.get = 0 := by
    funext k
    cases k using Blocks.placeCases with
    | x i => rw [Blocks.flatten_get_xPlace, Blocks.filled, get_replicate]; rfl
    | lam i => rw [Blocks.flatten_get_lamPlace, Blocks.filled, get_replicate]; rfl
    | s i => rw [Blocks.flatten_get_sPlace, Blocks.filled, get_replicate]; rfl
  refine det_ne_zero_of_kernel fun v vanishes => ?_
  obtain ⟨d, rfl⟩ : ∃ d : Blocks α m n, d.flatten.get = v :=
    ⟨.ofFlat (Vector.ofFn v), by rw [Blocks.flatten_ofFlat, get_ofFn]⟩
  rw [kernel d (solvesNewton_iff.mp (vanishes.trans zero.symm)), zero]

end LinearProgram

-----------------------------------------------------------------------------------------
-- A step in terms of its two directions
-----------------------------------------------------------------------------------------

namespace Blocks

variable [Field α] [LinearOrder α]

/-- The duality measure that a full affine step along a direction would leave. -/
def affineMeasure (y d : Blocks α m n) : α :=
  dot (descend y.x (unitLength (minRatio? y.x d.x)) d.x)
      (descend y.s (unitLength (minRatio? y.s d.s)) d.s) / ((n : Nat) : α)

/-- The right side of the final direction: the residual with the second-order term of the affine
direction and the centering target.
-/
def corrected (r d : Blocks α m n) (sigma mu : α) : Blocks α m n :=
  { r with s := addVec r.s ((mulEntries d.x d.s).map (· - sigma * mu)) }

/-- The point moved against a direction. -/
def moved (y d : Blocks α m n) (primalLength dualLength : α) : Blocks α m n where
  x := descend y.x primalLength d.x
  lam := descend y.lam dualLength d.lam
  s := descend y.s dualLength d.s

omit [LinearOrder α] in
theorem get_corrected_s (r d : Blocks α m n) (sigma mu : α)
    : (r.corrected d sigma mu).s.get = r.s.get + (d.x.get * d.s.get - fun _ => sigma * mu) := by
  rw [corrected, get_addVec, ← get_mulEntries]
  congr 1
  funext i
  simp

end Blocks

namespace LinearProgram

variable [Field α] [LinearOrder α]

/-- A step from a point to the next one, by an affine direction, which determines the centering
parameter, and a final direction, along which the point moves by the lengths of the ratio tests.
-/
structure IsNewtonStep (p : LinearProgram α m n) (y : Blocks α m n) (mu : α)
    (affine final : Blocks α m n) (taken : Step α) (next : Blocks α m n)
    : Prop where
  affine_solves : p.SolvesNewton y affine (p.residual y)
  centered : centering mu (y.affineMeasure affine) = .ok taken.sigma
  final_solves : p.SolvesNewton y final ((p.residual y).corrected affine taken.sigma mu)
  primalLength_eq : taken.primalLength = shortLength (minRatio? y.x final.x)
  dualLength_eq : taken.dualLength = shortLength (minRatio? y.s final.s)
  next_eq : next = y.moved final taken.primalLength taken.dualLength

/-- From a point with a nonsingular Jacobian there is one such step at most. -/
theorem IsNewtonStep.unique {p : LinearProgram α m n} {y : Blocks α m n} {mu : α}
    {affine final next affine' final' next' : Blocks α m n} {taken taken' : Step α}
    (regular : p.IsRegularAt y) (first : p.IsNewtonStep y mu affine final taken next)
    (second : p.IsNewtonStep y mu affine' final' taken' next')
    : taken = taken' ∧ next = next' := by
  obtain rfl := first.affine_solves.unique regular second.affine_solves
  have sigma : taken.sigma = taken'.sigma :=
    Except.ok.inj (first.centered.symm.trans second.centered)
  obtain rfl := first.final_solves.unique regular (sigma ▸ second.final_solves)
  have primal := first.primalLength_eq.trans second.primalLength_eq.symm
  have dual := first.dualLength_eq.trans second.dualLength_eq.symm
  constructor
  · cases taken
    cases taken'
    simp_all
  · rw [first.next_eq, second.next_eq, primal, dual]

end LinearProgram

namespace State

variable [Field α] [LinearOrder α]

/-- With exact factors of the Jacobian at a point, a solve for the direction solves the Newton
system of that point for the residual at hand.
-/
theorem solveDirection_solvesNewton (exact : engine.IsExact) {p : LinearProgram α m n}
    {y : Blocks α m n} {st next : State engine m n} {notices : List Notice}
    (factored : st.HasFactorsAt p y) (h : st.solveDirection = (.ok (), next, notices))
    : p.SolvesNewton y next.direction st.residual := by
  obtain ⟨t, jacobian, target, factors, before, after, assembled, made, phase⟩ := factored
  obtain ⟨d, answered, rfl⟩ := solveDirection_ok h
  obtain ⟨left, solved⟩ := Backend.solve_ok phase answered
  have solution := exact jacobian before after factors made _ _ _ _ solved
  rw [LinearProgram.entries_of_assemble assembled, ← Blocks.flatten_ofFlat d] at solution
  exact LinearProgram.solvesNewton_iff.mp solution

/-- A step from a prepared state is one by the two directions that its solves leave. -/
theorem step_isNewtonStep (exact : engine.IsExact) {p : LinearProgram α m n}
    {st next : State engine m n} (prepared : st.IsPrepared p) {mu : α} {taken : Step α}
    {notices : List Notice} (h : st.step mu = (.ok taken, next, notices))
    : p.IsNewtonStep st.point mu st.solveDirection.2.1.direction next.direction taken
        next.point := by
  obtain ⟨predicted, corrected, _, _, first, centered, second, primal, dual, rfl⟩ := step_ok h
  have affine := solveDirection_solvesNewton exact prepared.factored first
  rw [prepared.residual_eq] at affine
  rw [first]
  obtain ⟨d, -, rfl⟩ := solveDirection_ok first
  -- The first solve leaves the factors, so the second one solves with the same matrix.
  have factored
      : (State.correct { st with
            direction := .ofFlat d
            backend := (st.backend.solve false st.residual.flatten).backend }
          taken.sigma mu).HasFactorsAt p st.point := by
    obtain ⟨t, jacobian, target, factors, before, after, assembled, made, phase⟩ :=
      prepared.factored
    exact ⟨t, jacobian, target, factors, before, after, assembled, made,
      (Backend.phase_solve ..).trans phase⟩
  have final := solveDirection_solvesNewton exact factored second
  obtain ⟨e, -, rfl⟩ := solveDirection_ok second
  exact {
    affine_solves := affine
    centered := centered
    final_solves := by
      rw [← prepared.residual_eq]
      exact final
    primalLength_eq := primal
    dualLength_eq := dual
    next_eq := rfl
  }

end State

end InteriorPoint
