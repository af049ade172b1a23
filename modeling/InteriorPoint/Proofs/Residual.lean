import InteriorPoint.Method.Residual
import InteriorPoint.Proofs.EntryMatrix

/-! The residual of a linear program in terms of its constraint matrix with every position filled
in, and what is measured of it.
-/

namespace InteriorPoint

open scoped Matrix

namespace LinearProgram

section Rows

variable {α : Type} [Field α] {m n : Nat}

/-- The constraint matrix with every position filled in. -/
def toMatrix (p : LinearProgram α m n) : Matrix (Fin m) (Fin n) α :=
  Entries.toMatrix p.matrix.entries

/-- The dual residual is `Aᵀ lam + s - c`. -/
theorem residual_x (p : LinearProgram α m n) (y : Blocks α m n)
    : (p.residual y).x.get = p.toMatrixᵀ *ᵥ y.lam.get + y.s.get - p.cost.get := by
  rw [residual, get_subVec, get_addVec, Entries.get_trMulVec, toMatrix]

/-- The primal residual is `A x - b`. -/
theorem residual_lam (p : LinearProgram α m n) (y : Blocks α m n)
    : (p.residual y).lam.get = p.toMatrix *ᵥ y.x.get - p.rightSide.get := by
  rw [residual, get_subVec, Entries.get_mulVec, toMatrix]

/-- The complementarity residual is the product of variables and slacks. -/
theorem residual_s (p : LinearProgram α m n) (y : Blocks α m n)
    : (p.residual y).s.get = y.x.get * y.s.get := by
  rw [residual, get_mulEntries]

end Rows

/-- Minimise `-x₀ - 2 x₁` subject to `x₀ + x₁ = 4` and `x ≥ 0`, over the rationals: a program
small enough to run by hand, on which the main results are instantiated.
-/
def sample : LinearProgram ℚ 1 2 where
  matrix := ⟨#v[[(0, 1)], [(0, 1)]]⟩
  rightSide := #v[4]
  cost := #v[-1, -2]

/-- A single row is independent if it has an entry that is not zero. -/
theorem independent_of_entry {n : Nat} {p : LinearProgram ℚ 1 n} (j : Fin n)
    (nonzero : p.toMatrix 0 j ≠ 0)
    : LinearIndependent ℚ p.toMatrix.row := by
  rw [linearIndependent_subsingleton_index_iff]
  intro i zero
  obtain rfl : i = 0 := Subsingleton.elim ..
  exact nonzero (congrFun zero j)

theorem sample_independent
    : LinearIndependent ℚ sample.toMatrix.row :=
  independent_of_entry 0 (by decide +kernel)

/-- The sample program with a zero stored in its second column. -/
def sampleWithZero : LinearProgram ℚ 1 2 :=
  { sample with matrix := ⟨#v[[(0, 1)], [(0, 0)]]⟩ }

end LinearProgram

end InteriorPoint
