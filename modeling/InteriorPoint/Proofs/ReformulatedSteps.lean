import InteriorPoint.Proofs.ExactPasses
import InteriorPoint.Proofs.IndependentRows
import InteriorPoint.Proofs.Reformulation

/-! The method on a program in other words. The starting point, the Newton system of a point, its
solutions and the step along them are the counterparts of those for the program itself: centering
parameter and lengths are quotients in which the units cancel. So exact engines take the same steps
for both, or refuse both.
-/

namespace InteriorPoint

open scoped Matrix

variable {α : Type} [Field α] [LinearOrder α] {m n : Nat}

-----------------------------------------------------------------------------------------
-- The Newton system
-----------------------------------------------------------------------------------------

namespace LinearProgram

variable {p : LinearProgram α m n} {y d r : Blocks α m n}

/-- What a direction changes at a point, to first order. -/
def changes (p : LinearProgram α m n) (y d : Blocks α m n) : Blocks α m n where
  x := Vector.ofFn (p.toMatrixᵀ *ᵥ d.lam.get + d.s.get)
  lam := Vector.ofFn (p.toMatrix *ᵥ d.x.get)
  s := addVec (mulEntries y.s d.x) (mulEntries y.x d.s)

omit [LinearOrder α] in
theorem solvesNewton_iff_changes
    : p.SolvesNewton y d r ↔ p.changes y d = r := by
  have s : (p.changes y d).s.get = y.s.get * d.x.get + y.x.get * d.s.get := by
    rw [changes, get_addVec, get_mulEntries, get_mulEntries]
  constructor
  · intro solves
    refine (Blocks.mk.injEq ..).mpr ⟨vector_ext_get ?_, vector_ext_get ?_, vector_ext_get ?_⟩
    · rw [get_ofFn, solves.x]
    · rw [get_ofFn, solves.lam]
    · exact s.trans solves.s
  · rintro rfl
    exact { lam := (get_ofFn _).symm, x := (get_ofFn _).symm, s := s.symm }

omit [LinearOrder α] in
theorem changes_zero : p.changes y (.filled 0) = .filled 0 := by
  refine (Blocks.mk.injEq ..).mpr ⟨vector_ext_get ?_, vector_ext_get ?_, vector_ext_get ?_⟩
  · rw [get_ofFn, Blocks.filled, get_replicate, get_replicate]
    exact (congrArg (· + 0) (Matrix.mulVec_zero _)).trans (add_zero 0)
  · rw [get_ofFn, Blocks.filled, get_replicate, get_replicate]
    exact Matrix.mulVec_zero _
  · rw [get_addVec, get_mulEntries, get_mulEntries, Blocks.filled, get_replicate]
    funext i
    simp

omit [LinearOrder α] in
/-- A Jacobian is nonsingular if and only if the zero direction alone changes nothing. -/
theorem isRegularAt_iff
    : p.IsRegularAt y ↔ ∀ d, p.changes y d = .filled 0 → d = .filled 0 := by
  constructor
  · intro regular d unchanged
    exact (solvesNewton_iff_changes.mpr unchanged).unique regular
      (solvesNewton_iff_changes.mpr changes_zero)
  · intro kernel
    exact isRegularAt_of_kernel fun d solves => kernel d (solvesNewton_iff_changes.mp solves)

end LinearProgram

variable [IsStrictOrderedRing α]

/-- The units of the two measures cancel in the centering parameter. -/
theorem centering_mul {unit : α} (positive : 0 < unit) (mu affine : α)
    : centering (unit * mu) (unit * affine) = centering mu affine := by
  simp only [centering, mul_pos_iff_of_pos_left positive, mul_div_mul_left _ _ positive.ne']

namespace Reformulation

variable (t : Reformulation α m n)

theorem affineMeasure_point (y d : Blocks α m n)
    : (t.point y).affineMeasure (t.point d)
      = t.primalUnit * t.dualUnit * y.affineMeasure d := by
  simp only [Blocks.affineMeasure, point, minRatio?_relabel t.order t.primalUnit_pos,
    minRatio?_relabel t.order t.dualUnit_pos, descend_relabel, dot_relabel, mul_div_assoc]

omit [IsStrictOrderedRing α] in
theorem corrected_residual (r d : Blocks α m n) (sigma mu : α)
    : (t.residual r).corrected (t.point d) sigma (t.primalUnit * t.dualUnit * mu)
      = t.residual (r.corrected d sigma mu) := by
  simp only [Blocks.corrected, residual, point, mulEntries_relabel,
    mul_left_comm sigma (t.primalUnit * t.dualUnit) mu, map_sub_relabel, addVec_relabel]

omit [IsStrictOrderedRing α] in
theorem moved_point (y d : Blocks α m n) (primalLength dualLength : α)
    : (t.point y).moved (t.point d) primalLength dualLength
      = t.point (y.moved d primalLength dualLength) := by
  have lam
      : descend (t.multipliers y.lam) dualLength (t.multipliers d.lam)
        = t.multipliers (descend y.lam dualLength d.lam) := by
    refine vector_ext_get ?_
    simp only [get_descend, get_multipliers, Matrix.mulVec_sub, Matrix.mulVec_smul, smul_sub,
      smul_comm dualLength t.dualUnit]
  simp only [Blocks.moved, point, descend_relabel, lam]

namespace Takes

variable {t} {p q : LinearProgram α m n} (takes : t.Takes p q)

include takes

omit [IsStrictOrderedRing α] in
theorem changes_point (y d : Blocks α m n)
    : q.changes (t.point y) (t.point d) = t.residual (p.changes y d) := by
  refine (Blocks.mk.injEq ..).mpr ⟨vector_ext_get (funext fun i => ?_), vector_ext_get ?_, ?_⟩
  · simp only [LinearProgram.changes, point, get_ofFn, get_relabel, Pi.add_apply, Pi.smul_apply,
      takes.transpose_mulVec_multipliers, Function.comp_apply, smul_eq_mul, mul_add]
  · simp only [LinearProgram.changes, point, get_ofFn, get_combine, takes.mulVec_relabel]
  · simp only [LinearProgram.changes, point, mulEntries_relabel,
      mul_comm t.dualUnit t.primalUnit, addVec_relabel]

/-- A direction solves the Newton system of the one program if and only if its counterpart solves
that of the other.
-/
theorem solvesNewton_point_iff {y d r : Blocks α m n}
    : q.SolvesNewton (t.point y) (t.point d) (t.residual r) ↔ p.SolvesNewton y d r := by
  rw [LinearProgram.solvesNewton_iff_changes, takes.changes_point,
    LinearProgram.solvesNewton_iff_changes]
  exact t.residual_injective.eq_iff

theorem isRegularAt_point_iff {y : Blocks α m n}
    : q.IsRegularAt (t.point y) ↔ p.IsRegularAt y := by
  rw [LinearProgram.isRegularAt_iff, LinearProgram.isRegularAt_iff, t.point_surjective.forall]
  refine forall_congr' fun d => ?_
  rw [takes.changes_point, t.residual_eq_zero_iff, t.point_eq_zero_iff]

/-- A Newton step has a counterpart with the same centering parameter and the same lengths. -/
theorem isNewtonStep_point {y affine final next : Blocks α m n} {mu : α} {taken : Step α}
    (newton : p.IsNewtonStep y mu affine final taken next)
    : q.IsNewtonStep (t.point y) (t.primalUnit * t.dualUnit * mu) (t.point affine)
        (t.point final) taken (t.point next) where
  affine_solves := by
    rw [takes.residual_point]
    exact takes.solvesNewton_point_iff.mpr newton.affine_solves
  centered := by
    rw [t.affineMeasure_point, centering_mul t.unit_pos]
    exact newton.centered
  final_solves := by
    rw [takes.residual_point, t.corrected_residual]
    exact takes.solvesNewton_point_iff.mpr newton.final_solves
  primalLength_eq := by
    simp only [point, minRatio?_relabel t.order t.primalUnit_pos]
    exact newton.primalLength_eq
  dualLength_eq := by
    simp only [point, minRatio?_relabel t.order t.dualUnit_pos]
    exact newton.dualLength_eq
  next_eq := by rw [t.moved_point, newton.next_eq]

/-- So Newton steps from a point and from its counterpart are the same, and lead to counterparts. -/
theorem sameStep {y z next after affine final affine' final' : Blocks α m n}
    {taken taken' : Step α} (point : z = t.point y) (regular : p.IsRegularAt y)
    (newton : p.IsNewtonStep y (p.measureAt y) affine final taken next)
    (newton' : q.IsNewtonStep z (q.measureAt z) affine' final' taken' after)
    : taken' = taken ∧ after = t.point next := by
  rw [point, takes.measureAt_point] at newton'
  obtain ⟨same, moved⟩ := (takes.isNewtonStep_point newton).unique
    (takes.isRegularAt_point_iff.mpr regular) newton'
  exact ⟨same.symm, moved.symm⟩

end Takes

end Reformulation

-----------------------------------------------------------------------------------------
-- Jacobian, factors and step
-----------------------------------------------------------------------------------------

/-- Two attempts have the same value, or both fail over a factorization. -/
inductive SameOrSingular {β : Type} : Except Failure β → Except Failure β → Prop
  | same (value : β) : SameOrSingular (.ok value) (.ok value)
  | singular {failure other : Failure} (kind : failure.kind = .factorization)
    (kind_other : other.kind = .factorization)
    : SameOrSingular (.error failure) (.error other)

namespace Reformulation.Takes

variable {σ τ : Type} {engine : Engine α σ} {twin : Engine α τ} {t : Reformulation α m n}
  {p q : LinearProgram α m n}

/-- From a state and one at its counterpart exact engines lead to the same step and counterparts
again, or both are singular and the points stay.
-/
theorem cycleCase (takes : t.Takes p q) {mu : α} {st next : State engine m n}
    {other after : State twin m n} {result answer : Except Failure (Step α)}
    (point : other.point = t.point st.point) (first : State.CycleCase p mu st result next)
    (second : State.CycleCase q (t.primalUnit * t.dualUnit * mu) other answer after)
    : SameOrSingular result answer ∧ after.point = t.point next.point := by
  cases first with
  | singular irregular blames kept =>
      cases second with
      | singular _ blames' kept' =>
          exact ⟨.singular blames.kind_eq blames'.kind_eq, by rw [kept', kept, point]⟩
      | stepped _ _ regular =>
          rw [point, takes.isRegularAt_point_iff] at regular
          exact absurd regular irregular
  | stepped _ _ regular newton =>
      cases second with
      | singular irregular =>
          rw [point, takes.isRegularAt_point_iff] at irregular
          exact absurd regular irregular
      | stepped _ _ regular' newton' =>
          rw [point] at newton' regular'
          obtain ⟨rfl, same⟩ := (takes.isNewtonStep_point newton).unique regular' newton'
          exact ⟨.same _, same.symm⟩

/-- So it is for all states from which they can be tried. -/
theorem cycle (takes : t.Takes p q) (hn : 0 < n) (ideal : engine.IsIdeal) (ideal' : twin.IsIdeal)
    {k j : Nat} {st : State engine m n} {other : State twin m n} (set : st.IsSetFor p k)
    (set' : other.IsSetFor q j) (point : other.point = t.point st.point) (timing timing' : Bool)
    (mu : α)
    : SameOrSingular (st.cycle p k timing mu).1
          (other.cycle q j timing' (t.primalUnit * t.dualUnit * mu)).1
        ∧ (other.cycle q j timing' (t.primalUnit * t.dualUnit * mu)).2.1.point
          = t.point (st.cycle p k timing mu).2.1.point :=
  takes.cycleCase point (set.cycle_cases ideal hn timing mu).1
    (set'.cycle_cases ideal' hn timing' _).1

end Reformulation.Takes

-----------------------------------------------------------------------------------------
-- The starting point
-----------------------------------------------------------------------------------------

namespace Reformulation

variable {t : Reformulation α m n} {p q : LinearProgram α m n}

theorem balanced_point (t : Reformulation α m n) (y : Blocks α m n)
    : (t.point y).balanced = t.point y.balanced := by
  simp only [Blocks.balanced, point, shift_raise_relabel t.order t.primalUnit_pos,
    shift_raise_relabel t.order t.dualUnit_pos,
    balance_relabel t.order t.primalUnit_pos t.dualUnit_pos]

namespace Takes

variable (takes : t.Takes p q)

include takes

omit [IsStrictOrderedRing α] in
/-- Dependent rows remain dependent, and independent ones independent. -/
theorem independent_iff
    : LinearIndependent α q.toMatrix.row ↔ LinearIndependent α p.toMatrix.row := by
  have unit : IsUnit t.rows.valᵀ := (Matrix.isUnit_transpose _).mpr t.rows.isUnit
  have bijective : Function.Bijective t.rows.valᵀ.mulVec :=
    ⟨Matrix.mulVec_injective_iff_isUnit.mpr unit, Matrix.mulVec_surjective_iff_isUnit.mpr unit⟩
  have order : Function.Injective fun v : Fin n → α => v ∘ t.order :=
    t.order.surjective.injective_comp_right
  have whole
      : (fun v => v ᵥ* q.toMatrix)
        = (fun v => v ∘ t.order) ∘ (fun v => v ᵥ* p.toMatrix) ∘ t.rows.valᵀ.mulVec := by
    funext v
    simp only [Function.comp_apply, ← Matrix.mulVec_transpose, takes.transpose_mulVec]
  rw [← Matrix.vecMul_injective_iff, ← Matrix.vecMul_injective_iff]
  exact whole ▸ (order.of_comp_iff _).trans (Function.Injective.of_comp_iff' _ bijective)

omit [IsStrictOrderedRing α] in
theorem isLeastNorm_point {y : Blocks α m n} (least : p.IsLeastNorm y)
    : q.IsLeastNorm (t.point y) where
  primal := by
    rw [point, takes.mulVec_relabel, least.primal, takes.rightSide, get_combine]
  combination := by
    obtain ⟨d, combination⟩ := least.combination
    refine ⟨t.primalUnit • (t.rows.invᵀ *ᵥ d), ?_⟩
    rw [takes.transpose_mulVec, Matrix.mulVec_smul, Matrix.mulVec_mulVec, ← Matrix.transpose_mul,
      t.rows.inv_val, Matrix.transpose_one, Matrix.one_mulVec, Matrix.mulVec_smul, ← combination,
      point, get_relabel]
    rfl
  dual := by
    rw [takes.cost, get_relabel, ← least.dual, point, takes.transpose_mulVec_multipliers,
      get_relabel]
    funext i
    simp only [Pi.add_apply, Pi.smul_apply, Function.comp_apply, smul_eq_mul, mul_add]
  orthogonal := by
    rw [point, takes.mulVec_relabel, least.orthogonal, Matrix.mulVec_zero, smul_zero]

/-- The starting points are counterparts, or there is none for either program. -/
theorem startingPoint_cases
    : (∃ y, p.startingPoint = .ok y ∧ q.startingPoint = .ok (t.point y))
      ∨ ∃ order other,
          p.startingPoint = .error (.minorNotPositive m order)
          ∧ q.startingPoint = .error (.minorNotPositive m other) := by
  rcases p.startingPoint_cases with ⟨independent, y, -, least, start⟩ | ⟨dependent, order, start⟩
  · rcases q.startingPoint_cases with ⟨independent', z, -, least', start'⟩ | ⟨dependent', -⟩
    · obtain rfl := (takes.isLeastNorm_point least).unique independent' least'
      exact .inl ⟨y.balanced, start, by rw [start', t.balanced_point]⟩
    · exact absurd (takes.independent_iff.mpr independent) dependent'
  · rcases q.startingPoint_cases with ⟨independent', -⟩ | ⟨-, other, start'⟩
    · exact absurd (takes.independent_iff.mp independent') dependent
    · exact .inr ⟨order, other, start, start'⟩

end Takes

end Reformulation

end InteriorPoint
