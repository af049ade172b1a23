import InteriorPoint.Linear.Triplet
import InteriorPoint.Method.Program

/-! Assembly of the Jacobian of the optimality conditions. -/

namespace InteriorPoint

variable {α : Type} {m n : Nat}

namespace LinearProgram

/-- Room for the matrix twice and for three diagonals. -/
def jacobianCapacity (p : LinearProgram α m n) : Nat :=
  2 * p.matrix.count + 3 * n

/-- An empty Jacobian. -/
def emptyJacobian (p : LinearProgram α m n) : Triplet α (n + m + n) (n + m + n) where
  capacity := p.jacobianCapacity
  entries := []

/-- Rebuilds the Jacobian at a point:
`Aᵀ` and a unit block in the first rows, `A` in the next, slacks and variables in the last.
-/
def assemble [One α] (p : LinearProgram α m n) (y : Blocks α m n)
    (jacobian : Triplet α (n + m + n) (n + m + n))
    : Except Triplet.Fault (Triplet α (n + m + n) (n + m + n)) := do
  let corner : Int := (n + m : Nat)
  let t ← jacobian.start.putWithTranspose p.matrix.entries
  let t ← t.putDiagonal 0 corner (List.replicate n 1)
  let t ← t.putDiagonal corner 0 y.s.toList
  t.putDiagonal corner corner y.x.toList

end LinearProgram

end InteriorPoint
