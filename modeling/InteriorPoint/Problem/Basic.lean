import InteriorPoint.Linear.Stored

/-! Problems as they are kept: a named matrix with two vectors and what is known of the optimum.
The vectors need not fit the matrix, nor the rows of the matrix lie inside; a solver checks that.
-/

namespace InteriorPoint

/-- A named program in standard form, with a known solution and objective where there is one. -/
structure Problem (α : Type) where
  name : String
  matrix : Loose α
  rightSide : List α
  cost : List α
  expectedX : Option (List α)
  expectedObjective : Option α

namespace Problem

variable {α : Type}

/-- How many equations and variables the matrix has. -/
def shape (p : Problem α) : List Nat :=
  [p.matrix.rows, p.matrix.cols]

variable [Zero α] [Add α] [LE α] [DecidableLE α]

/-- Makes a problem from parts of any shape; vectors are laid out flat. -/
def make (name : String) (matrix : MatrixSource α) (rightSide cost : Nested α)
    (expectedX : Option (Nested α)) (expectedObjective : Option α)
    : Except StorageFault (Problem α) := do
  let flat (values : Nested α) : Except StorageFault (List α) :=
    (values.tensor.map (·.values)).mapError .nesting
  let matrix ← matrix.toLoose
  let rightSide ← flat rightSide
  let cost ← flat cost
  let expectedX ← expectedX.mapM flat
  pure { name, matrix, rightSide, cost, expectedX, expectedObjective }

/-- A problem with a matrix given row by row. -/
def ofRows {m n : Nat} (name : String) (rows : Grid α m n) (rightSide cost expectedX : List α)
    (expectedObjective : α)
    : Problem α where
  name := name
  matrix := .ofSparse (Stored.nonzeros rows).canonical
  rightSide := rightSide
  cost := cost
  expectedX := some expectedX
  expectedObjective := some expectedObjective

end Problem

end InteriorPoint
