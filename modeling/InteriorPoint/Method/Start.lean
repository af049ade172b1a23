import InteriorPoint.Linear.Definite
import InteriorPoint.Linear.Kernel
import InteriorPoint.Method.Program

/-! The starting point: least-norm solutions of the primal and dual equations, moved until they
are positive and of balanced size.
-/

namespace InteriorPoint

variable {α : Type} [Zero α] [One α] [Add α] [Sub α] [Mul α] [Div α] [Neg α] [NatCast α]
  [LT α] [LE α] [DecidableLT α] [DecidableLE α] {m n : Nat}

/-- How far beyond its least entry a vector with negative entries is raised. -/
def startShift : α :=
  ((3 : Nat) : α) / ((2 : Nat) : α)

/-- The share of the complementarity that the balancing shifts take up. -/
def startBalance : α :=
  ((1 : Nat) : α) / ((2 : Nat) : α)

/-- The shift that makes a vector nonnegative, and zero for one that has no negative entry. -/
def raise (x : Vector α n) : α :=
  firstMax (-startShift * least x) 0

/-- Adds to each of two vectors the balanced share of their inner product over the sum of the
other one. Vectors whose inner product is not positive are left alone.
-/
def balance (x s : Vector α n) : Vector α n × Vector α n :=
  let product := dot x s
  if 0 < product then
    (shift x (startBalance * product / total s), shift s (startBalance * product / total x))
  else (x, s)

namespace LinearProgram

variable [PivotSplit α]

/-- The least-norm solution `x` of `A x = b`, and the multipliers and slacks of the dual
equations with the least slacks.
-/
def leastNorm (p : LinearProgram α m n) : Except Definite.Fault (Blocks α m n) :=
  let es := p.matrix.entries
  match Definite.solvePair p.matrix.gram p.rightSide (Entries.mulVec es p.cost) with
  | .error fault => .error fault
  | .ok (d, lam) =>
      .ok {
        x := Entries.trMulVec es d
        lam
        s := Kernel.addTrMulVec p.cost (-1) es lam }

/-- The starting point, unless the rows of the matrix are dependent. -/
def startingPoint (p : LinearProgram α m n) : Except Definite.Fault (Blocks α m n) :=
  match p.leastNorm with
  | .error fault => .error fault
  | .ok point =>
      let (x, s) := balance (shift point.x (raise point.x)) (shift point.s (raise point.s))
      .ok { x, lam := point.lam, s }

end LinearProgram

end InteriorPoint
