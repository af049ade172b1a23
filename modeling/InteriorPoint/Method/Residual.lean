import InteriorPoint.Linear.Kernel
import InteriorPoint.Method.Program

/-! Residuals of the optimality conditions, and what is measured at a point. -/

namespace InteriorPoint

/-- The duality measure and the two objectives at a point. -/
structure Measures (α : Type) where
  mu : α
  primal : α
  dual : α

variable {α : Type} [Zero α] [One α] [Add α] [Sub α] [Mul α] [Div α] [Neg α] [NatCast α]
  [LT α] [LE α] [DecidableLT α] [DecidableLE α] {m n : Nat}

namespace LinearProgram

/-- `Aᵀ lam + s - c`, `A x - b` and the products `x s`. -/
def residual (p : LinearProgram α m n) (y : Blocks α m n) : Blocks α m n where
  x := subVec (addVec (Entries.trMulVec p.matrix.entries y.lam) y.s) p.cost
  lam := subVec (Entries.mulVec p.matrix.entries y.x) p.rightSide
  s := mulEntries y.x y.s

/-- The objective of the program. -/
def objective (p : LinearProgram α m n) (y : Blocks α m n) : α :=
  dot p.cost y.x

/-- The objective of its dual. -/
def dualObjective (p : LinearProgram α m n) (y : Blocks α m n) : α :=
  dot p.rightSide y.lam

/-- What is measured at a point with a given residual. -/
def measures (p : LinearProgram α m n) (y r : Blocks α m n) : Measures α where
  mu := total r.s / ((n : Nat) : α)
  primal := p.objective y
  dual := p.dualObjective y

end LinearProgram

/-- The distance of the two objectives relative to the first. -/
def relativeGap (primal dual : α) : α :=
  magnitude (primal - dual) / (1 + magnitude primal)

/-- The greatest violation of the primal equations by a residual. -/
def Blocks.primalNorm (r : Blocks α m n) : α :=
  supNorm r.lam

/-- The greatest violation of the dual equations by a residual. -/
def Blocks.dualNorm (r : Blocks α m n) : α :=
  supNorm r.x

/-- Whether a gap, and with a feasibility tolerance also a residual, lets a solve stop. A gap
that compares with nothing stops it.
-/
def Config.accepts (config : Config α) (r : Blocks α m n) (gap : α) : Bool :=
  if config.gapTolerance ≤ gap then false
  else
    match config.feasibilityTolerance with
    | none => true
    | some tolerance => firstMax r.primalNorm r.dualNorm < tolerance

end InteriorPoint
