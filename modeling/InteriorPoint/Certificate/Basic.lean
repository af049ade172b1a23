import InteriorPoint.Method.Residual

/-! Certificates: the optimality conditions at a point, evaluated anew in any arithmetic. Both
products with the matrix come from one pass over its columns, apart from the products that the
method works with.
-/

namespace InteriorPoint

/-- What a certificate states about a point. -/
structure Certificate (α : Type) where
  digits : Int
  primalResidual : α
  dualResidual : α
  complementarity : α
  primalObjective : α
  dualObjective : α
  relativeGap : α
  xLeast : α
  sLeast : α

namespace Certificate

/-- The decimal digits of a certificate, unless another number is asked for. -/
def standardDigits : Int := 50

/-- The residuals, products and gap of a certificate by their names. -/
def measures {α : Type} (c : Certificate α) : List (String × α) :=
  [("primal_residual", c.primalResidual), ("dual_residual", c.dualResidual),
    ("complementarity", c.complementarity), ("primal_objective", c.primalObjective),
    ("dual_objective", c.dualObjective), ("relative_gap", c.relativeGap)]

/-- `A x` and `Aᵀ lam`. -/
structure Products (α : Type) (m n : Nat) where
  rows : Vector α m
  cols : Vector α n

variable {α : Type} {m n : Nat}

/-- Adds what one stored value contributes to either product. -/
def Products.add [Add α] [Mul α] (y : Blocks α m n) (j : Fin n) (sums : Products α m n)
    (cell : Fin m × α)
    : Products α m n :=
  let (i, value) := cell
  { rows := sums.rows.set i (sums.rows.get i + value * y.x.get j) i.isLt
    cols := sums.cols.set j (sums.cols.get j + value * y.lam.get i) j.isLt }

/-- Both products, from the first column to the last and down each column. -/
def products [Zero α] [Add α] [Mul α] (a : Columns α m n) (y : Blocks α m n)
    : Products α m n :=
  (List.finRange n).foldl (fun sums j => (a.column.get j).foldl (Products.add y j) sums)
    ⟨Vector.replicate m 0, Vector.replicate n 0⟩

/-- The products of corresponding entries. -/
def terms [Mul α] (x y : Vector α n) : List α :=
  (Vector.zipWith (· * ·) x y).toList

section Order

variable [Zero α] [LT α] [DecidableLT α]

/-- The greatest of some values: the first, unless a later one is strictly greater. -/
def greatest (xs : List α) : α :=
  foldFirst firstMax xs

/-- The least of some values: the first, unless a later one is strictly smaller. -/
def leastOf (xs : List α) : α :=
  foldFirst firstMin xs

variable [LE α] [DecidableLE α]

/-- Whether the residuals and the gap are within a tolerance and no variable or slack is
negative.
-/
def passed (c : Certificate α) (tolerance : α) : Bool :=
  decide (c.primalResidual ≤ tolerance) && decide (c.dualResidual ≤ tolerance)
    && decide (c.relativeGap ≤ tolerance) && decide (0 ≤ c.xLeast) && decide (0 ≤ c.sLeast)

end Order

variable [Zero α] [One α] [Add α] [Sub α] [Mul α] [Div α] [Neg α] [LT α] [LE α]
  [DecidableLT α] [DecidableLE α]

/-- Evaluates the conditions at a point, with inner products summed by `sum`. -/
def evaluate (sum : List α → α) (digits : Int) (p : LinearProgram α m n) (y : Blocks α m n)
    : Certificate α :=
  let image := products p.matrix y
  let primalObjective := sum (terms p.cost y.x)
  let dualObjective := sum (terms p.rightSide y.lam)
  { digits
    primalResidual := greatest ((subVec image.rows p.rightSide).toList.map magnitude)
    dualResidual := greatest ((subVec (addVec image.cols y.s) p.cost).toList.map magnitude)
    complementarity := sum (terms y.x y.s)
    primalObjective
    dualObjective
    relativeGap := InteriorPoint.relativeGap primalObjective dualObjective
    xLeast := leastOf y.x.toList
    sLeast := leastOf y.s.toList }

end Certificate

end InteriorPoint
