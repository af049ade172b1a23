import InteriorPoint.Linear.Vector

/-! Sparse matrices as lists of entries. Positions may repeat: the matrix that a list stands
for adds up the values at each position, and positions without an entry hold zero.
-/

namespace InteriorPoint

/-- A value at a position of an `m × n` matrix. -/
structure Entry (α : Type) (m n : Nat) where
  row : Fin m
  col : Fin n
  value : α

namespace Entry

variable {α : Type} {m n : Nat}

/-- The entry of the transposed matrix. -/
def transpose (e : Entry α m n) : Entry α n m :=
  ⟨e.col, e.row, e.value⟩

/-- An entry at a position that is checked. -/
def of? (m n : Nat) (i j : Int) (value : α) : Option (Entry α m n) :=
  if h : (0 ≤ i ∧ i < m) ∧ 0 ≤ j ∧ j < n then
    some ⟨⟨i.toNat, by omega⟩, ⟨j.toNat, by omega⟩, value⟩
  else none

end Entry

namespace Entries

variable {α : Type} {m n : Nat} [Zero α] [Add α]

/-- The matrix with every position filled in. -/
def toGrid (es : List (Entry α m n)) : Grid α m n :=
  es.foldl
    (fun a e => a.setEntry e.row e.col (a.entry e.row e.col + e.value))
    (Grid.ofFn fun _ _ => 0)

variable [Mul α]

/-- The product with a vector. Only stored entries take part, so an infinite coordinate does
not meet a zero that is not stored.
-/
def mulVec (es : List (Entry α m n)) (x : Vector α n) : Vector α m :=
  es.foldl (fun y e => y.set e.row (y[e.row] + e.value * x[e.col])) (Vector.replicate m 0)

/-- The product of the transposed matrix with a vector. -/
def trMulVec (es : List (Entry α m n)) (y : Vector α m) : Vector α n :=
  mulVec (es.map Entry.transpose) y

end Entries

end InteriorPoint
