import InteriorPoint.Linear.Entry

/-! Sparse matrices stored column by column, and the canonical form in which the rows of each
column ascend strictly.
-/

namespace InteriorPoint

/-- A sparse matrix as one list of rows and values for each column. -/
structure Columns (α : Type) (m n : Nat) where
  column : Vector (List (Fin m × α)) n

namespace Columns

variable {α : Type} {m n : Nat}

/-- The entries, from the first column to the last. -/
def entries (a : Columns α m n) : List (Entry α m n) :=
  (List.finRange n).flatMap fun j => (a.column.get j).map fun (i, value) => ⟨i, j, value⟩

/-- Sorts entries into their columns, where they keep their order. -/
def ofEntries (es : List (Entry α m n)) : Columns α m n :=
  ⟨Vector.ofFn fun j =>
    es.filterMap fun e => if e.col = j then some (e.row, e.value) else none⟩

/-- How many entries are stored. -/
def count (a : Columns α m n) : Nat :=
  a.entries.length

/-- The same positions with other values. -/
def map {β : Type} (f : α → β) (a : Columns α m n) : Columns β m n :=
  ⟨a.column.map (List.map fun (i, value) => (i, f value))⟩

/-- In canonical form the rows of every column ascend strictly. -/
def IsCanonical (a : Columns α m n) : Prop :=
  ∀ j : Fin n, (a.column.get j).Pairwise fun p q => p.1 < q.1

/-- Sets two matrices side by side. -/
def beside {k : Nat} (a : Columns α m n) (b : Columns α m k) : Columns α m (n + k) :=
  ⟨a.column ++ b.column⟩

/-- The matrix whose column `j` is the column `order[j]` of another one. -/
def arrange {k : Nat} (a : Columns α m n) (order : Vector (Fin n) k) : Columns α m k :=
  ⟨order.map a.column.get⟩

/-- The identity matrix. -/
def identity [One α] : Columns α m m :=
  ⟨Vector.ofFn fun i => [(i, 1)]⟩

section Merge

variable {ι : Type} [LT ι] [DecidableLT ι] [DecidableEq ι] [Add α]

/-- Puts a value into an ascending column. A value for a row that is there already is added to
the value found.
-/
def insertRow (i : ι) (value : α) : List (ι × α) → List (ι × α)
  | [] => [(i, value)]
  | (k, found) :: rest =>
      if i < k then (i, value) :: (k, found) :: rest
      else if i = k then (k, found + value) :: rest
      else (k, found) :: insertRow i value rest

/-- Brings the rows of a column into ascending order, adding up repeated rows in the order in
which they appear.
-/
def mergeColumn (column : List (ι × α)) : List (ι × α) :=
  column.foldl (fun sorted (i, value) => insertRow i value sorted) []

/-- The canonical form of the matrix that a list of entries stands for. No position is lost:
zeros and sums that cancel stay stored.
-/
def canonical (es : List (Entry α m n)) : Columns α m n :=
  ⟨(ofEntries es).column.map mergeColumn⟩

end Merge

section Product

variable [Zero α] [Add α] [Mul α]

/-- Adds the products of an entry with the entries of its column to the matrix of row products. -/
def addProducts (a : Columns α m n) (g : Grid α m m) (e : Entry α m n) : Grid α m m :=
  (a.column.get e.col).foldl
    (fun g (k, value) => g.setEntry e.row k (g.entry e.row k + e.value * value))
    g

/-- The product of a list of entries with a transposed matrix: inner products of the rows, to
which the entries contribute one after another. Rows that share no column give zero.
-/
def timesTransposed (es : List (Entry α m n)) (a : Columns α m n) : Grid α m m :=
  es.foldl a.addProducts (Grid.ofFn fun _ _ => 0)

/-- The product with the transposed matrix, summed over the columns in ascending order. -/
def gram (a : Columns α m n) : Grid α m m :=
  timesTransposed a.entries a

end Product

end Columns

/-- A matrix stored column by column, together with its shape. -/
structure Sparse (α : Type) where
  rows : Nat
  cols : Nat
  columns : Columns α rows cols

/-- A sparse matrix with every position filled in. -/
def Sparse.toGrid {α : Type} [Zero α] [Add α] (a : Sparse α) : Grid α a.rows a.cols :=
  Entries.toGrid a.columns.entries

end InteriorPoint
