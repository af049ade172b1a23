import InteriorPoint.Proofs.ExactSteps
import InteriorPoint.Proofs.LeastNorm
import InteriorPoint.Proofs.Relabelling

/-! The same program in other words: its equations combined to equivalent ones, its variables in
another order, right side and cost in other units. Points, residuals and directions of the one
program have counterparts for the other, and the Newton steps of the one are those of the other.
-/

namespace InteriorPoint

open scoped Matrix

variable {α : Type} [Field α] [LinearOrder α] {m n : Nat}

/-- A way to put a program in other words: an invertible combination of its equations, an order of
its variables, and positive units for right side and cost.
-/
structure Reformulation (α : Type) [Field α] [LinearOrder α] (m n : Nat) where
  rows : (Matrix (Fin m) (Fin m) α)ˣ
  order : Equiv.Perm (Fin n)
  primalUnit : α
  dualUnit : α
  primalUnit_pos : 0 < primalUnit
  dualUnit_pos : 0 < dualUnit

namespace Reformulation

/-- Combines the equations and orders the variables; the units are as before. -/
def ofRows [IsStrictOrderedRing α] (rows : (Matrix (Fin m) (Fin m) α)ˣ)
    (order : Equiv.Perm (Fin n))
    : Reformulation α m n where
  rows
  order
  primalUnit := 1
  dualUnit := 1
  primalUnit_pos := zero_lt_one
  dualUnit_pos := zero_lt_one

/-- Changes the units alone. -/
def ofUnits {primalUnit dualUnit : α} (primal : 0 < primalUnit) (dual : 0 < dualUnit)
    : Reformulation α m n where
  rows := 1
  order := .refl _
  primalUnit
  dualUnit
  primalUnit_pos := primal
  dualUnit_pos := dual

variable (t : Reformulation α m n)

/-- The combinations of the right sides, or of the violations, of the equations. -/
def combine (b : Vector α m) : Vector α m :=
  Vector.ofFn (t.primalUnit • (t.rows.val *ᵥ b.get))

/-- The multipliers of the combined equations. -/
def multipliers (lam : Vector α m) : Vector α m :=
  Vector.ofFn (t.dualUnit • (t.rows.invᵀ *ᵥ lam.get))

/-- The counterpart of a point or of a direction. -/
def point (y : Blocks α m n) : Blocks α m n where
  x := relabel t.order t.primalUnit y.x
  lam := t.multipliers y.lam
  s := relabel t.order t.dualUnit y.s

/-- The counterpart of a residual. -/
def residual (r : Blocks α m n) : Blocks α m n where
  x := relabel t.order t.dualUnit r.x
  lam := t.combine r.lam
  s := relabel t.order (t.primalUnit * t.dualUnit) r.s

/-- The second program is the first one in those words, however their matrices are stored. -/
structure Takes (t : Reformulation α m n) (p q : LinearProgram α m n) : Prop where
  matrix : q.toMatrix = (t.rows.val * p.toMatrix).submatrix id t.order
  rightSide : q.rightSide = t.combine p.rightSide
  cost : q.cost = relabel t.order t.dualUnit p.cost

/-- One such program, with every entry of its matrix stored. -/
def program (p : LinearProgram α m n) : LinearProgram α m n where
  matrix := .ofMatrix ((t.rows.val * p.toMatrix).submatrix id t.order)
  rightSide := t.combine p.rightSide
  cost := relabel t.order t.dualUnit p.cost

theorem takes_program (p : LinearProgram α m n)
    : t.Takes p (t.program p) where
  matrix := Columns.toMatrix_ofMatrix _
  rightSide := rfl
  cost := rfl

-----------------------------------------------------------------------------------------
-- Counterparts are one to one
-----------------------------------------------------------------------------------------

section Counterparts

theorem get_combine (b : Vector α m)
    : (t.combine b).get = t.primalUnit • (t.rows.val *ᵥ b.get) :=
  get_ofFn _

theorem get_multipliers (lam : Vector α m)
    : (t.multipliers lam).get = t.dualUnit • (t.rows.invᵀ *ᵥ lam.get) :=
  get_ofFn _

theorem transpose_rows_mulVec_multipliers (lam : Vector α m)
    : t.rows.valᵀ *ᵥ (t.multipliers lam).get = t.dualUnit • lam.get := by
  rw [get_multipliers, Matrix.mulVec_smul, Matrix.mulVec_mulVec, ← Matrix.transpose_mul,
    t.rows.inv_val, Matrix.transpose_one, Matrix.one_mulVec]

theorem combine_injective : Function.Injective t.combine := by
  intro b c same
  have entries := congrArg (fun b => t.rows.inv *ᵥ b.get) same
  simp only [get_combine, Matrix.mulVec_smul, Matrix.mulVec_mulVec, t.rows.inv_val,
    Matrix.one_mulVec] at entries
  exact vector_ext_get (smul_right_injective _ t.primalUnit_pos.ne' entries)

theorem multipliers_injective : Function.Injective t.multipliers := by
  intro b c same
  have entries := congrArg (fun lam => t.rows.valᵀ *ᵥ lam.get) same
  simp only [transpose_rows_mulVec_multipliers] at entries
  exact vector_ext_get (smul_right_injective _ t.dualUnit_pos.ne' entries)

theorem multipliers_surjective : Function.Surjective t.multipliers := by
  intro c
  refine ⟨Vector.ofFn (t.dualUnit⁻¹ • (t.rows.valᵀ *ᵥ c.get)), vector_ext_get ?_⟩
  rw [get_multipliers, get_ofFn, Matrix.mulVec_smul, Matrix.mulVec_mulVec,
    ← Matrix.transpose_mul, t.rows.val_inv, Matrix.transpose_one, Matrix.one_mulVec,
    smul_inv_smul₀ t.dualUnit_pos.ne']

theorem point_injective : Function.Injective t.point := by
  rintro ⟨x, lam, s⟩ ⟨x', lam', s'⟩ same
  obtain ⟨x, lam, s⟩ := (Blocks.mk.injEq ..).mp same
  rw [Blocks.mk.injEq]
  exact ⟨relabel_injective t.order t.primalUnit_pos.ne' x, t.multipliers_injective lam,
    relabel_injective t.order t.dualUnit_pos.ne' s⟩

theorem point_surjective : Function.Surjective t.point := by
  rintro ⟨x, lam, s⟩
  obtain ⟨x, rfl⟩ := relabel_surjective t.order t.primalUnit_pos.ne' x
  obtain ⟨lam, rfl⟩ := t.multipliers_surjective lam
  obtain ⟨s, rfl⟩ := relabel_surjective t.order t.dualUnit_pos.ne' s
  exact ⟨⟨x, lam, s⟩, rfl⟩

/-- The product of the units is positive as well. -/
theorem unit_pos [IsStrictOrderedRing α] : 0 < t.primalUnit * t.dualUnit :=
  mul_pos t.primalUnit_pos t.dualUnit_pos

theorem residual_injective [IsStrictOrderedRing α] : Function.Injective t.residual := by
  rintro ⟨x, lam, s⟩ ⟨x', lam', s'⟩ same
  obtain ⟨x, lam, s⟩ := (Blocks.mk.injEq ..).mp same
  rw [Blocks.mk.injEq]
  exact ⟨relabel_injective t.order t.dualUnit_pos.ne' x, t.combine_injective lam,
    relabel_injective t.order t.unit_pos.ne' s⟩

theorem point_zero : t.point (.filled 0) = .filled 0 := by
  have lam : t.multipliers (.replicate m 0) = .replicate m 0 := by
    refine vector_ext_get ?_
    rw [get_multipliers, get_replicate]
    exact (congrArg (t.dualUnit • ·) (Matrix.mulVec_zero _)).trans (smul_zero _)
  exact (Blocks.mk.injEq ..).mpr ⟨relabel_zero .., lam, relabel_zero ..⟩

theorem residual_zero : t.residual (.filled 0) = .filled 0 := by
  have lam : t.combine (.replicate m 0) = .replicate m 0 := by
    refine vector_ext_get ?_
    rw [get_combine, get_replicate]
    exact (congrArg (t.primalUnit • ·) (Matrix.mulVec_zero _)).trans (smul_zero _)
  exact (Blocks.mk.injEq ..).mpr ⟨relabel_zero .., lam, relabel_zero ..⟩

theorem point_eq_zero_iff {d : Blocks α m n} : t.point d = .filled 0 ↔ d = .filled 0 := by
  have same := t.point_injective.eq_iff (a := d) (b := .filled 0)
  rwa [point_zero] at same

theorem residual_eq_zero_iff [IsStrictOrderedRing α] {r : Blocks α m n}
    : t.residual r = .filled 0 ↔ r = .filled 0 := by
  have same := t.residual_injective.eq_iff (a := r) (b := .filled 0)
  rwa [residual_zero] at same

end Counterparts

-----------------------------------------------------------------------------------------
-- What is computed of a point
-----------------------------------------------------------------------------------------

namespace Takes

variable {t} {p q : LinearProgram α m n}

theorem mulVec_relabel (takes : t.Takes p q) (unit : α) (x : Vector α n)
    : q.toMatrix *ᵥ (relabel t.order unit x).get
      = unit • (t.rows.val *ᵥ (p.toMatrix *ᵥ x.get)) := by
  have entries : (relabel t.order unit x).get ∘ t.order.symm = unit • x.get := by
    funext i
    rw [get_relabel]
    exact congrArg (fun i => unit * x.get i) (t.order.apply_symm_apply i)
  rw [takes.matrix, Matrix.submatrix_mulVec_equiv, entries, Matrix.mulVec_smul,
    ← Matrix.mulVec_mulVec, Function.comp_id]

theorem transpose_mulVec (takes : t.Takes p q) (v : Fin m → α)
    : q.toMatrixᵀ *ᵥ v = (p.toMatrixᵀ *ᵥ (t.rows.valᵀ *ᵥ v)) ∘ t.order := by
  rw [takes.matrix, Matrix.transpose_submatrix, Matrix.transpose_mul, Matrix.mulVec_mulVec]
  rfl

theorem transpose_mulVec_multipliers (takes : t.Takes p q) (lam : Vector α m)
    : q.toMatrixᵀ *ᵥ (t.multipliers lam).get
      = t.dualUnit • (p.toMatrixᵀ *ᵥ lam.get) ∘ t.order := by
  rw [takes.transpose_mulVec, transpose_rows_mulVec_multipliers, Matrix.mulVec_smul]
  rfl

/-- The residual of the counterpart is the counterpart of the residual. -/
theorem residual_point (takes : t.Takes p q) (y : Blocks α m n)
    : q.residual (t.point y) = t.residual (p.residual y) := by
  have x : (q.residual (t.point y)).x = (t.residual (p.residual y)).x := by
    refine vector_ext_get (funext fun i => ?_)
    simp only [LinearProgram.residual_x, takes.cost, point, residual, get_relabel,
      takes.transpose_mulVec_multipliers, Pi.sub_apply, Pi.add_apply, Pi.smul_apply,
      Function.comp_apply, smul_eq_mul]
    ring
  have lam : (q.residual (t.point y)).lam = (t.residual (p.residual y)).lam := by
    refine vector_ext_get ?_
    simp only [LinearProgram.residual_lam, takes.rightSide, point, residual,
      takes.mulVec_relabel, get_combine, Matrix.mulVec_sub, smul_sub]
  have s : (q.residual (t.point y)).s = (t.residual (p.residual y)).s := mulEntries_relabel ..
  exact (Blocks.mk.injEq ..).mpr ⟨x, lam, s⟩

theorem objective_point (takes : t.Takes p q) (y : Blocks α m n)
    : q.objective (t.point y) = t.primalUnit * t.dualUnit * p.objective y := by
  rw [LinearProgram.objective, takes.cost, point, dot_relabel, LinearProgram.objective,
    mul_comm t.dualUnit]

theorem dualObjective_point (takes : t.Takes p q) (y : Blocks α m n)
    : q.dualObjective (t.point y) = t.primalUnit * t.dualUnit * p.dualObjective y := by
  rw [LinearProgram.dualObjective, takes.rightSide, point, dot_eq_dotProduct, get_combine,
    smul_dotProduct, dotProduct_comm, Matrix.dotProduct_mulVec, ← Matrix.mulVec_transpose,
    transpose_rows_mulVec_multipliers, smul_dotProduct, dotProduct_comm, ← dot_eq_dotProduct,
    smul_eq_mul, smul_eq_mul, mul_assoc]
  rfl

theorem measureAt_point (takes : t.Takes p q) (y : Blocks α m n)
    : q.measureAt (t.point y) = t.primalUnit * t.dualUnit * p.measureAt y := by
  rw [LinearProgram.measureAt, takes.residual_point, LinearProgram.measures, residual,
    total_relabel, mul_div_assoc]
  rfl

end Takes

end Reformulation

end InteriorPoint
