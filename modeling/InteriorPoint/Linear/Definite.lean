import InteriorPoint.Linear.Elimination
import InteriorPoint.Linear.Tensor

/-! Solution of symmetric positive definite systems by a factorization into a lower and an upper
triangle. With square roots of the pivots one is the transpose of the other, and this is the
Cholesky factorization. Only the upper triangle of the matrix is read.
-/

namespace InteriorPoint

/-- The columns of the lower triangle and the rows of the upper one, from the first step on, each
with its entry on the diagonal.
-/
inductive Definite (α : Type) : Nat → Type where
  | empty : Definite α 0
  | step {n : Nat} (lower upper : α) (column row : Vector α n) (rest : Definite α n)
    : Definite α (n + 1)

namespace Definite

variable {α : Type}

section Factor

variable [Zero α] [Sub α] [Mul α] [Div α] [LT α] [DecidableLT α]

/-- Factors a matrix, or names the first step, counted from `number`, whose pivot is not
positive. A step needs only the first row, since the first column is the same by symmetry.
-/
def factor [PivotSplit α] : {n : Nat} → (number : Nat) → Grid α n n → Except Nat (Definite α n)
  | 0, _, _ => .ok empty
  | n + 1, number, a =>
      let pivot := a.entry 0 0
      if 0 < pivot then
        let first := Vector.ofFn fun j : Fin n => a.entry 0 j.succ
        let lower := PivotSplit.lower pivot
        let upper := PivotSplit.upper pivot
        let column := first.map (· / upper)
        let row := first.map (· / lower)
        (factor (number + 1) (a.remainder column row)).map (step lower upper column row)
      else .error number

variable [Add α]

/-- The solution of the factored system: down the lower triangle, then up the upper one. -/
def solve : {n : Nat} → Definite α n → Vector α n → Vector α n
  | 0, _, b => b
  | n + 1, step lower upper column row rest, b =>
      let first := b.get ⟨0, n.succ_pos⟩ / lower
      let others := rest.solve (descend (tailVec b) first column)
      consVec ((first - dot row others) / upper) others

end Factor

/-- Why a system is not solved. -/
inductive Fault where
  | scalarMatrix
  | shapes (a b c : List Nat)
  | matrixNotFinite (size : Nat)
  | minorNotPositive (size order : Nat)
  | rightSideNotFinite
  deriving DecidableEq

def Fault.message : Fault → String
  | scalarMatrix => "tuple index out of range"
  | shapes a b c =>
      "Shape mismatch: a " ++ shapeText a ++ ", b1 " ++ shapeText b ++ ", b2 " ++ shapeText c
  | matrixNotFinite size => failed size "array must not contain infs or NaNs"
  | minorNotPositive size order =>
      failed size
        (toString order ++ "-th leading minor of the array is not positive definite")
  | rightSideNotFinite => "array must not contain infs or NaNs"
where
  failed (size : Nat) (cause : String) : String :=
    "Cholesky factorization of the " ++ toString size ++ "x" ++ toString size
      ++ " normal matrix failed: " ++ cause

variable [Zero α] [Add α] [Sub α] [Mul α] [Div α] [LT α] [LE α] [DecidableLT α] [DecidableLE α]
  [PivotSplit α]

/-- Solves for two right sides with one factorization. All of the matrix has to be finite, and
the right sides are looked at only once it has been factored.
-/
def solvePair {n : Nat} (a : Grid α n n) (b c : Vector α n)
    : Except Fault (Vector α n × Vector α n) :=
  if a.all allFinite then
    match factor 1 a with
    | .error order => .error (.minorNotPositive n order)
    | .ok factors =>
        if allFinite b && allFinite c then .ok (factors.solve b, factors.solve c)
        else .error .rightSideNotFinite
  else .error (.matrixNotFinite n)

/-- Solves for two right sides given as arrays, if the shapes fit together. -/
def solveTensors (a b c : Tensor α) : Except Fault (List α × List α) :=
  match a.shape with
  | [] => .error .scalarMatrix
  | n :: _ =>
      if a.shape = [n, n] ∧ b.shape = [n] ∧ c.shape = [n] then
        let entries := a.values.toArray
        let grid : Grid α n n := Grid.ofFn fun i j => entries.getD (i * n + j) 0
        (solvePair grid (b.toVector n) (c.toVector n)).map fun (x, y) => (x.toList, y.toList)
      else .error (.shapes a.shape b.shape c.shape)

end Definite

end InteriorPoint
