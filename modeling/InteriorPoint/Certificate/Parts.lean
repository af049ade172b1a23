import InteriorPoint.Certificate.Basic
import InteriorPoint.Linear.Stored

/-! Certificates of parts as they are handed over, of any shape, with their values taken to the
arithmetic of the certificate.
-/

namespace InteriorPoint.Certificate

/-- Why parts that are handed over have no certificate. -/
inductive Fault where
  | matrix (fault : StorageFault)
  | lengths (rows cols b c x lam s : Nat)
  | vectors (fault : NestingFault)
  | unsized
  | missingValue
  | noValues

def Fault.message : Fault → String
  | matrix fault => fault.message
  | lengths rows cols b c x lam s =>
      "Dimension mismatch for A of shape " ++ shapeText [rows, cols] ++ ": b " ++ toString b
        ++ ", c " ++ toString c ++ ", x " ++ toString x ++ ", lam " ++ toString lam ++ ", s "
        ++ toString s
  | vectors fault => fault.message
  | unsized => "len() of unsized object"
  | missingValue => "list index out of range"
  | noValues => "max() arg is an empty sequence"

/-- The first `n` of some values, if there are so many. -/
def leading? {α : Type} (n : Nat) (xs : List α) : Option (Vector α n) :=
  if h : n ≤ xs.length then some ⟨(xs.take n).toArray, by simp [h]⟩ else none

variable {α β : Type} [Zero α] [Add α] [LE α] [DecidableLE α] [Zero β] [One β] [Add β] [Sub β]
  [Mul β] [Div β] [Neg β] [LT β] [LE β] [DecidableLT β] [DecidableLE β]

/-- Evaluates the conditions for parts of any shape, with their values taken over by `read` and
inner products summed by `sum`. Outermost lengths have to fit the matrix, and of the values laid out
flat the leading ones are used, except that all of them count for the least ones. Rows that lie
outside are counted from the end if they are negative, and have no value otherwise. Without rows, or
without columns, there is no residual to take the greatest of.
-/
def evaluateParts (read : α → β) (sum : List β → β) (digits : Int) (a : MatrixSource α)
    (b c x lam s : Nested α)
    : Except Fault (Certificate β) := do
  let b ← b.tensor.mapError .vectors
  let c ← c.tensor.mapError .vectors
  let x ← x.tensor.mapError .vectors
  let lam ← lam.tensor.mapError .vectors
  let s ← s.tensor.mapError .vectors
  let a ← a.toLoose.mapError .matrix
  if [b, c, x, lam, s].any fun t => t.rank == 0 then throw .unsized
  let length (t : Tensor α) : Nat := t.shape.headD 0
  if length b ≠ a.rows ∨ length c ≠ a.cols ∨ length x ≠ a.cols ∨ length s ≠ a.cols
      ∨ length lam ≠ a.rows then
    throw (.lengths a.rows a.cols (length b) (length c) (length x) (length lam) (length s))
  let some a := a.fromEnd.sparse? | throw .missingValue
  if a.rows = 0 then throw .noValues
  let some rightSide := leading? a.rows b.values | throw .missingValue
  if a.cols = 0 then throw .noValues
  let some cost := leading? a.cols c.values | throw .missingValue
  let some point := leading? a.cols x.values | throw .missingValue
  let some multipliers := leading? a.rows lam.values | throw .missingValue
  let some slacks := leading? a.cols s.values | throw .missingValue
  let program : LinearProgram α a.rows a.cols := ⟨a.columns, rightSide, cost⟩
  let y : Blocks α a.rows a.cols := ⟨point, multipliers, slacks⟩
  pure { evaluate sum digits (program.map read) (y.map read) with
    xLeast := leastOf (x.values.map read)
    sLeast := leastOf (s.values.map read) }

end InteriorPoint.Certificate
