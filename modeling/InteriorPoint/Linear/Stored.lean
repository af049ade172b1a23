import InteriorPoint.Linear.Loose
import InteriorPoint.Linear.Tensor

/-! Matrices in the formats they are handed over in: every entry written out, coordinates, or
compressed rows or columns. All of them come down to a shape and a list of entries.
-/

namespace InteriorPoint

/-- A matrix as a shape and entries in the order of its storage. -/
structure Stored (α : Type) where
  rows : Nat
  cols : Nat
  entries : List (Entry α rows cols)

/-- Why something is no stored matrix. -/
inductive StorageFault where
  | nesting (fault : NestingFault)
  | dimensions (rank : Nat)
  | blockDimensions (rank : Nat)
  | notLines
  | pointerCount (found expected : Nat)
  | firstPointer
  | unequalLengths
  | lastPointer
  | tooFewEntries
  | unequalCoordinates
  | outside (axis : Nat) (position : Int) (bound : Nat)
  | negative (axis : Nat) (position : Int)

def StorageFault.message : StorageFault → String
  | .nesting fault => fault.message
  | .dimensions rank => "Matrix must be 2-D, got ndim=" ++ toString rank
  | .blockDimensions rank => "expected 2D array or matrix, not " ++ toString rank ++ "D"
  | .notLines => "data, indices, and indptr should be 1-D"
  | .pointerCount found expected =>
      "index pointer size " ++ toString found ++ " should be " ++ toString expected
  | .firstPointer => "index pointer should start with 0"
  | .unequalLengths => "indices and data should have the same size"
  | .lastPointer =>
      "Last value of index pointer should be less than the size of index and data arrays"
  | .tooFewEntries => "indices array has fewer than nnz elements"
  | .unequalCoordinates => "all index and data arrays must have the same length"
  | .outside axis position bound =>
      "axis " ++ toString axis ++ " index " ++ toString position
        ++ " exceeds matrix dimension " ++ toString bound
  | .negative axis position =>
      "negative axis " ++ toString axis ++ " index: " ++ toString position

/-- The fault of positions along an axis, the greatest of which is looked at first. -/
def StorageFault.ofPositions (axis bound : Nat) (positions : List Int) : StorageFault :=
  let greatest := positions.max?.getD 0
  if bound ≤ greatest then .outside axis greatest bound
  else .negative axis (positions.min?.getD 0)

/-- The items of each run that consecutive pointers mark out. A run that ends before it starts
is empty.
-/
def runs {β : Type} (items : List β) (pointers : List Int) : List (List β) :=
  (pointers.zip (pointers.drop 1)).map fun (start, stop) =>
    (items.drop start.toNat).take (stop - start).toNat

/-- Checks the pointers of a compressed format with `count` runs. -/
def checkPointers {α : Type} (count : Nat) (pointers indices : List Int) (values : List α)
    : Except StorageFault Unit :=
  if pointers.length ≠ count + 1 then .error (.pointerCount pointers.length (count + 1))
  else if pointers.head? ≠ some 0 then .error .firstPointer
  else if indices.length ≠ values.length then .error .unequalLengths
  else if (indices.length : Int) < pointers.getLast?.getD 0 then .error .lastPointer
  else .ok ()

/-- How many of `count` entries are left when the last pointer cuts them off. A negative one
counts from the end, in each of three passes.
-/
def keptCount (count : Nat) (last : Int) : Nat :=
  if last < 0 then count - 3 * last.natAbs else min count last.toNat

/-- Compressed columns: pointers to where each column starts, rows and values. -/
def Loose.ofCompressed {α : Type} [Add α] (m n : Nat) (pointers indices : List Int)
    (values : List α)
    : Except StorageFault (Loose α) := do
  checkPointers n pointers indices values
  let columns := (runs (indices.zip values) pointers).toArray
  let a : Loose α := ⟨m, n, Vector.ofFn fun j => columns.getD j []⟩
  if keptCount values.length (pointers.getLast?.getD 0) < a.canonical.count then
    throw .tooFewEntries
  pure a

namespace Stored

variable {α : Type}

/-- Entries at positions that are checked. -/
def ofPositions (m n : Nat) (positions : List (Int × Int × α))
    : Except StorageFault (Stored α) :=
  let rows := positions.map (·.1)
  let cols := positions.map (·.2.1)
  match positions.mapM fun (i, j, x) => Entry.of? m n i j x with
  | some entries => .ok ⟨m, n, entries⟩
  | none =>
      .error
        (if rows.all fun i => decide (0 ≤ i ∧ i < m) then .ofPositions 1 n cols
        else .ofPositions 0 m rows)

/-- Entries given by their coordinates. -/
def ofCoordinates (m n : Nat) (rows cols : List Int) (values : List α)
    : Except StorageFault (Stored α) :=
  if rows.length ≠ values.length ∨ cols.length ≠ values.length then .error .unequalCoordinates
  else ofPositions m n (rows.zip (cols.zip values))

/-- Compressed rows: pointers to where each row starts, columns and values. -/
def ofCompressedRows (m n : Nat) (pointers indices : List Int) (values : List α)
    : Except StorageFault (Stored α) := do
  checkPointers m pointers indices values
  ofPositions m n
    ((runs (indices.zip values) pointers).zipIdx.flatMap fun (row, i) =>
      row.map fun (j, x) => (Int.ofNat i, j, x))

/-- The entries of a matrix by columns. -/
def ofSparse (a : Sparse α) : Stored α :=
  ⟨a.rows, a.cols, a.columns.entries⟩

/-- The entries of a matrix by columns, if its rows lie inside. -/
def ofLoose (a : Loose α) : Except StorageFault (Stored α) :=
  match a.sparse? with
  | some sparse => .ok (.ofSparse sparse)
  | none => .error (.ofPositions 0 a.rows a.indices)

/-- All positions of a grid, row by row. -/
def ofGrid {m n : Nat} (a : Grid α m n) : Stored α where
  rows := m
  cols := n
  entries := (List.finRange m).flatMap fun i => (List.finRange n).map fun j => ⟨i, j, a.entry i j⟩

/-- The positions of a grid that do not hold zero, row by row. -/
def nonzeros [Zero α] [LE α] [DecidableLE α] {m n : Nat} (a : Grid α m n) : Stored α where
  rows := m
  cols := n
  entries := (ofGrid a).entries.filter fun e => !isZero e.value

/-- The canonical form by columns. -/
def canonical [Add α] (a : Stored α) : Sparse α where
  rows := a.rows
  cols := a.cols
  columns := .canonical a.entries

end Stored

/-- The array of a grid. -/
def Tensor.ofGrid {α : Type} {m n : Nat} (a : Grid α m n) : Tensor α :=
  ⟨[m, n], a.toList.flatMap (·.toList)⟩

/-- The grid of an array with two indices. -/
def Tensor.grid? {α : Type} [Zero α] (t : Tensor α) : Option ((m : Nat) × (n : Nat) × Grid α m n) :=
  match t.shape with
  | [m, n] =>
      let values := t.values.toArray
      some ⟨m, n, Grid.ofFn fun i j => values.getD (i * n + j) 0⟩
  | _ => none

/-- An array with its indices exchanged, if there are two. -/
def Tensor.transpose {α : Type} [Zero α] (t : Tensor α) : Tensor α :=
  match t.grid? with
  | some ⟨_, _, a⟩ => .ofGrid a.transpose
  | none => t

/-- A matrix as a caller may hand it over. -/
inductive MatrixSource (α : Type) where
  | nested (values : Nested α)
  | dense (values : Tensor α)
  | coordinates (matrix : Stored α)
  | compressedRows (matrix : Stored α)
  | compressedColumns (matrix : Loose α)

namespace MatrixSource

variable {α : Type}

/-- Whether the rows of a source lie inside its matrix. Only those of compressed columns may not. -/
def IsInside : MatrixSource α → Prop
  | .compressedColumns matrix => matrix.isInside
  | _ => True

instance decidableIsInside (source : MatrixSource α) : Decidable source.IsInside :=
  match source with
  | .nested _ | .dense _ | .coordinates _ | .compressedRows _ => .isTrue trivial
  | .compressedColumns matrix => inferInstanceAs (Decidable (matrix.isInside = true))

variable [Zero α] [LE α] [DecidableLE α]

/-- The nonzeros of an array with two indices. -/
def ofTensor (t : Tensor α) : Except StorageFault (Stored α) :=
  match t.grid? with
  | some ⟨_, _, a⟩ => .ok (.nonzeros a)
  | none => .error (.dimensions t.rank)

/-- The stored entries of a source, those of a dense one being its nonzeros. -/
def toStored : MatrixSource α → Except StorageFault (Stored α)
  | .nested values => (values.tensor.mapError .nesting).bind ofTensor
  | .dense t => ofTensor t
  | .coordinates matrix => .ok matrix
  | .compressedRows matrix => .ok matrix
  | .compressedColumns matrix => Stored.ofLoose matrix

/-- The nonzeros of an array that is to become a block of a larger matrix, where an array with
one index counts as one row and a number as one entry.
-/
def blockOfTensor (t : Tensor α) : Except StorageFault (Stored α) :=
  match t.shape with
  | [] => ofTensor ⟨[1, 1], t.values⟩
  | [n] => ofTensor ⟨[1, n], t.values⟩
  | [_, _] => ofTensor t
  | shape => .error (.blockDimensions shape.length)

/-- The stored entries of a source that is to become a block of a larger matrix. -/
def toBlock : MatrixSource α → Except StorageFault (Stored α)
  | .nested values => (values.tensor.mapError .nesting).bind blockOfTensor
  | .dense t => blockOfTensor t
  | source => source.toStored

/-- The canonical form of a source. -/
def toSparse [Add α] (source : MatrixSource α) : Except StorageFault (Sparse α) :=
  source.toStored.map Stored.canonical

/-- The canonical form of a source whose rows may lie outside. -/
def toLoose [Add α] : MatrixSource α → Except StorageFault (Loose α)
  | .compressedColumns matrix => .ok matrix.canonical
  | source => source.toSparse.map .ofSparse

end MatrixSource

end InteriorPoint
