import InteriorPoint.Linear.Triplet

/-! The arrays behind an assembly. They are allocated once and written over, and rows and columns
are machine words in them, so a number may be too large for its place or wrap around.
-/

namespace InteriorPoint

namespace Triplet

/-- Three arrays of fixed length and the position up to which they are in use. What lies beyond
that position is left from before and means nothing.
-/
structure Arrays (α : Type) (m n : Nat) where
  capacity : Nat
  rows : Vector Int64 capacity
  cols : Vector Int64 capacity
  values : Vector α capacity
  position : Nat

/-- Arrays together with the shape of their matrix. -/
structure AnyArrays (α : Type) where
  rows : Nat
  cols : Nat
  content : Arrays α rows cols

/-- An array with items written over it from some index on. -/
def overwrite {β : Type} {k : Nat} (v : Vector β k) (start : Nat) (items : List β) : Vector β k :=
  Vector.ofFn fun i =>
    if h : start ≤ i ∧ i - start < items.length then items.get ⟨i - start, h.2⟩ else v.get i

/-- Why arrays are not converted to a matrix. -/
inductive ConversionFault where
  | tooLarge
  | storage (fault : StorageFault)

def ConversionFault.message : ConversionFault → String
  | .tooLarge => Fault.message .tooLarge
  | .storage fault => fault.message

/-- A computation on arrays. What it has written stays written when it fails. -/
abbrev Filling (α : Type) (m n : Nat) := EStateM Fault (Arrays α m n)

namespace Arrays

variable {α : Type} {m n : Nat}

/-- Arrays full of zeros, none of which is in use. -/
def fresh [Zero α] (capacity : Nat) : Arrays α m n :=
  ⟨capacity, .replicate capacity 0, .replicate capacity 0, .replicate capacity 0, 0⟩

/-- The arrays of a new assembly; negative numbers are refused. -/
def new [Zero α] (m n capacity : Int) : Except Fault (AnyArrays α) :=
  if m < 0 ∨ n < 0 ∨ capacity < 0 then .error (.shape m n capacity)
  else .ok ⟨m.toNat, n.toNat, fresh capacity.toNat⟩

/-- Rewinds the position and leaves the arrays. -/
def start (b : Arrays α m n) : Arrays α m n :=
  { b with position := 0 }

/-- Moves the position on by a number of places, and answers with the first of them. -/
def reserve (count : Nat) : Filling α m n Nat := fun b =>
  let needed := b.position + count
  if b.capacity < needed then .error (.full needed b.capacity) b
  else .ok b.position { b with position := needed }

/-- The machine word of a number that is not negative. -/
def word (i : Int) : Filling α m n Int64 :=
  if i < IndexWidth.full.bound then pure (.ofInt i) else throw .tooLarge

def writeRows (place : Nat) (rows : List Int64) : Filling α m n Unit :=
  modify fun b => { b with rows := overwrite b.rows place rows }

def writeCols (place : Nat) (cols : List Int64) : Filling α m n Unit :=
  modify fun b => { b with cols := overwrite b.cols place cols }

def writeValues (place : Nat) (values : List α) : Filling α m n Unit :=
  modify fun b => { b with values := overwrite b.values place values }

/-- Puts one entry. -/
def put (i j : Int) (value : α) : Filling α m n Unit := do
  unless (0 ≤ i ∧ i < m) ∧ 0 ≤ j ∧ j < n do throw (.entryOutside i j m n)
  let place ← reserve 1
  writeRows place [← word i]
  writeCols place [← word j]
  writeValues place [value]

/-- Puts values down a diagonal. The positions are sums of machine words. -/
def putDiagonal (i j : Int) (values : List α) : Filling α m n Unit := do
  if i < 0 ∨ j < 0 ∨ m < i + values.length ∨ n < j + values.length then
    throw (.diagonalOutside values.length i j m n)
  let place ← reserve values.length
  let offsets := (List.range values.length).map Int64.ofNat
  let row ← word i
  writeRows place (offsets.map (row + ·))
  let col ← word j
  writeCols place (offsets.map (col + ·))
  writeValues place values

/-- Puts a matrix and its transpose, the transpose first. Both places are taken at once, and the
rows are moved on in the words of the matrix.
-/
def putWithTranspose (a : Indexed α) : Filling α m n Unit := do
  if m < a.rows + a.cols ∨ n < a.rows + a.cols then
    throw (.blocksOutside a.rows a.cols m n)
  let first ← reserve (2 * a.entries.length)
  let second := first + a.entries.length
  let rows := a.entries.map fun e => a.width.sum a.cols e.row
  let cols := a.entries.map fun e => Int64.ofNat e.col
  let values := a.entries.map Entry.value
  writeRows first cols
  writeCols first rows
  writeValues first values
  writeRows second rows
  writeCols second cols
  writeValues second values

/-- Carries out one step. -/
def apply : Command α → Filling α m n Unit
  | .start => modify start
  | .put i j value => put i j value
  | .diagonal i j values => putDiagonal i j values
  | .matrix a => putWithTranspose a

/-- A row, a column and a value as a caller reads them. -/
def read (cell : Int64 × Int64 × α) : Int × Int × α :=
  (cell.1.toInt, cell.2.1.toInt, cell.2.2)

/-- The cells in use. -/
def live (b : Arrays α m n) : List (Int × Int × α) :=
  ((b.rows.toList.zip (b.cols.toList.zip b.values.toList)).take b.position).map read

/-- The canonical form by columns. Machine words have to number rows and columns, and a cell that
has come to lie outside is found only now.
-/
def toSparse [Add α] (b : Arrays α m n) : Except ConversionFault (Sparse α) :=
  if m < IndexWidth.full.bound ∧ n < IndexWidth.full.bound then
    ((Stored.ofPositions m n b.live).mapError .storage).map Stored.canonical
  else .error .tooLarge

end Arrays

end Triplet

end InteriorPoint
