import InteriorPoint.Linear.Vector

/-! Elimination with row exchanges. Each step splits off the first row and column and goes on
with the matrix that is left, so a factorization has the size of its matrix in its type.
-/

namespace InteriorPoint

section Cons

variable {α : Type} {n : Nat}

/-- A vector from its first entry and the others. -/
def consVec (x : α) (rest : Vector α n) : Vector α (n + 1) :=
  Vector.ofFn (Fin.cases x rest.get)

/-- The entries of a vector after the first. -/
def tailVec (x : Vector α (n + 1)) : Vector α n :=
  Vector.ofFn fun i => x[i.succ]

/-- Exchanges the first item with another one. -/
def swapFirst {β : Type} (k : Fin (n + 1)) (x : Vector β (n + 1)) : Vector β (n + 1) :=
  x.swap 0 k

@[simp]
theorem getElem_consVec_zero (x : α) (rest : Vector α n) : (consVec x rest)[0] = x := by
  simp only [consVec, Vector.getElem_ofFn]
  rfl

@[simp]
theorem getElem_consVec_succ (x : α) (rest : Vector α n) (i : Nat) (h : i + 1 < n + 1)
    : (consVec x rest)[i + 1] = rest[i] := by
  simp only [consVec, Vector.getElem_ofFn]
  rfl

@[simp]
theorem getElem_tailVec (x : Vector α (n + 1)) (i : Nat) (h : i < n)
    : (tailVec x)[i] = x[i + 1] := by
  simp [tailVec]

end Cons

/-- What one step leaves of the other rows and columns: from each entry it takes the product of
a number for its row and a number for its column.
-/
def Grid.remainder {α : Type} [Sub α] [Mul α] {n : Nat} (a : Grid α (n + 1) (n + 1))
    (rows cols : Vector α n)
    : Grid α n n :=
  Grid.ofFn fun i j => a.entry i.succ j.succ - rows.get i * cols.get j

/-- The steps of an elimination: which row came first, its leading entry, the rest of that
row, and the multiples of it that were taken from the other rows.
-/
inductive Elimination (α : Type) : Nat → Type where
  | empty : Elimination α 0
  | step {n : Nat} (chosen : Fin (n + 1)) (pivot : α) (row multipliers : Vector α n)
      (rest : Elimination α n)
      : Elimination α (n + 1)

namespace Elimination

variable {α : Type}

/-- The pivots, from the first step on. -/
def pivots : {n : Nat} → Elimination α n → List α
  | _, empty => []
  | _, step _ pivot _ _ rest => pivot :: rest.pivots

section Choice

variable [Zero α] [Neg α] [LT α] [DecidableLT α]

/-- Keeps the better of two rows: one whose entry is greater in size than the best so far, or
than zero when there is none. An undefined entry is never chosen.
-/
def better {n : Nat} (column : Vector α n) (best : Option (Fin n)) (i : Fin n)
    : Option (Fin n) :=
  match best with
  | none => if 0 < magnitude (column.get i) then some i else none
  | some k => if magnitude (column.get k) < magnitude (column.get i) then some i else some k

/-- The first of the rows whose entry is greatest in size, if any entry is not zero. -/
def pivotRow? {n : Nat} (column : Vector α n) : Option (Fin n) :=
  (List.finRange n).foldl (better column) none

/-- The same row, or else the first one whose entry is undefined. -/
def definedFirstRow? [LE α] [DecidableLE α] {n : Nat} (column : Vector α n) : Option (Fin n) :=
  (pivotRow? column).or ((List.finRange n).find? fun i => isUndefined (column.get i))

end Choice

variable [Sub α] [Mul α] [Div α]

/-- Eliminates column by column, in the rows that `choose` picks, or names the column, counted
from `number`, where it picks none.
-/
def factor (choose : {k : Nat} → Vector α k → Option (Fin k))
    : {n : Nat} → (number : Nat) → Grid α n n → Except Nat (Elimination α n)
  | 0, _, _ => .ok empty
  | n + 1, number, a =>
      match choose (Vector.ofFn fun i : Fin (n + 1) => a.entry i 0) with
      | none => .error number
      | some chosen =>
          let a : Grid α (n + 1) (n + 1) := swapFirst chosen a
          let pivot := a.entry 0 0
          let row := Vector.ofFn fun j : Fin n => a.entry 0 j.succ
          let multipliers := Vector.ofFn fun i : Fin n => a.entry i.succ 0 / pivot
          (factor choose (number + 1) (a.remainder multipliers row)).map
            (step chosen pivot row multipliers)

variable [Zero α] [Add α]

/-- The solution of `A x = b`: down through the row operations, then up through the rows. -/
def solve : {n : Nat} → Elimination α n → Vector α n → Vector α n
  | 0, _, b => b
  | _ + 1, step chosen pivot row multipliers rest, b =>
      let b := swapFirst chosen b
      let others := rest.solve (descend (tailVec b) b[0] multipliers)
      consVec ((b[0] - dot row others) / pivot) others

/-- The solution of `Aᵀ x = b`: down through the rows, then up through the row operations, with
the exchange of each step last.
-/
def solveTransposed : {n : Nat} → Elimination α n → Vector α n → Vector α n
  | 0, _, b => b
  | _ + 1, step chosen pivot row multipliers rest, b =>
      let first := b[0] / pivot
      let others := rest.solveTransposed (descend (tailVec b) first row)
      swapFirst chosen (consVec (first - dot multipliers others) others)

end Elimination

end InteriorPoint
