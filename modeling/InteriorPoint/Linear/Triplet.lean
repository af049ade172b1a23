import InteriorPoint.Linear.Stored

/-! Assembly of a matrix entry by entry, in a list of bounded length. A call that does not fit
leaves the list as it was. Positions are numbers here, and only the matrices that are put tell how
wide the words for theirs are; the arrays behind an assembly are made of such words.
-/

namespace InteriorPoint

/-- Entries put one after another, at most `capacity` of them. -/
structure Triplet (α : Type) (m n : Nat) where
  capacity : Nat
  entries : List (Entry α m n)

/-- An assembly together with its shape. -/
structure AnyTriplet (α : Type) where
  rows : Nat
  cols : Nat
  content : Triplet α rows cols

/-- An assembly of a square matrix together with its size. -/
structure SquareTriplet (α : Type) where
  size : Nat
  content : Triplet α size size

/-- A square assembly, if the shape is square. -/
def AnyTriplet.square? {α : Type} (t : AnyTriplet α) : Option (SquareTriplet α) :=
  match t with
  | ⟨m, n, content⟩ => if h : m = n then some ⟨n, h ▸ content⟩ else none

/-- The widths of the signed machine words that number the positions of a matrix. -/
inductive IndexWidth where
  | half
  | full

namespace IndexWidth

/-- The first number beyond the words of a width. -/
def bound : IndexWidth → Nat
  | half => 1 <<< 31
  | full => 1 <<< 63

/-- A sum in words of a width, where it wraps around, as a word of full width. -/
def sum (width : IndexWidth) (i j : Nat) : Int64 :=
  match width with
  | half => (Int32.ofNat i + Int32.ofNat j).toInt64
  | full => Int64.ofNat i + Int64.ofNat j

end IndexWidth

/-- A stored matrix whose positions are numbered by words that are wide enough for its shape. -/
structure Indexed (α : Type) extends Stored α where
  width : IndexWidth
  rows_lt : rows < width.bound
  cols_lt : cols < width.bound

/-- A matrix with the narrowest words for its shape, if there are any. -/
def Indexed.ofStored? {α : Type} (a : Stored α) : Option (Indexed α) :=
  if h : a.rows < IndexWidth.half.bound ∧ a.cols < IndexWidth.half.bound then
    some ⟨a, .half, h.1, h.2⟩
  else if h : a.rows < IndexWidth.full.bound ∧ a.cols < IndexWidth.full.bound then
    some ⟨a, .full, h.1, h.2⟩
  else none

namespace Triplet

/-- Why entries cannot be put. -/
inductive Fault where
  | shape (m n capacity : Int)
  | entryOutside (i j : Int) (rows cols : Nat)
  | diagonalOutside (length : Nat) (i j : Int) (rows cols : Nat)
  | blocksOutside (p q rows cols : Nat)
  | full (needed capacity : Nat)
  | tooLarge

def Fault.message : Fault → String
  | .shape m n capacity =>
      "Invalid triplet dimensions (" ++ toString m ++ ", " ++ toString n ++ ", "
        ++ toString capacity ++ ")"
  | .entryOutside i j rows cols =>
      "Entry (" ++ toString i ++ ", " ++ toString j ++ ") outside matrix of shape "
        ++ shapeText [rows, cols]
  | .diagonalOutside length i j rows cols =>
      "Diagonal of length " ++ toString length ++ " at (" ++ toString i ++ ", " ++ toString j
        ++ ") outside matrix of shape " ++ shapeText [rows, cols]
  | .blocksOutside p q rows cols =>
      "Blocks of a " ++ toString p ++ "x" ++ toString q ++ " matrix do not fit in shape "
        ++ shapeText [rows, cols]
  | .full needed capacity =>
      "Triplet capacity exceeded: " ++ toString needed ++ " > " ++ toString capacity
  | .tooLarge => "Python int too large to convert to C long"

variable {α : Type} {m n : Nat}

/-- An empty assembly; negative numbers are refused. -/
def new (m n capacity : Int) : Except Fault (AnyTriplet α) :=
  if m < 0 ∨ n < 0 ∨ capacity < 0 then .error (.shape m n capacity)
  else .ok ⟨m.toNat, n.toNat, ⟨capacity.toNat, []⟩⟩

/-- Discards all entries and keeps the capacity. -/
def start (t : Triplet α m n) : Triplet α m n :=
  { t with entries := [] }

/-- How many entries there are. -/
def count (t : Triplet α m n) : Nat :=
  t.entries.length

/-- Puts a block of entries at the end, all of them or none. -/
def append (t : Triplet α m n) (block : List (Entry α m n)) : Except Fault (Triplet α m n) :=
  let needed := t.count + block.length
  if t.capacity < needed then .error (.full needed t.capacity)
  else .ok { t with entries := t.entries ++ block }

/-- Puts one entry. The position is checked before the capacity. -/
def put (t : Triplet α m n) (i j : Int) (value : α) : Except Fault (Triplet α m n) :=
  match Entry.of? m n i j value with
  | some entry => t.append [entry]
  | none => .error (.entryOutside i j m n)

/-- The entries of a diagonal that starts at `(i, j)` and stays inside. -/
def diagonal (i j : Nat) (values : List α) (hi : i + values.length ≤ m)
    (hj : j + values.length ≤ n)
    : List (Entry α m n) :=
  List.ofFn fun k : Fin values.length =>
    ⟨⟨i + k, by omega⟩, ⟨j + k, by omega⟩, values[k]⟩

/-- Puts values down a diagonal from `(i, j)` on. The run is checked before the capacity, also
when there are no values.
-/
def putDiagonal (t : Triplet α m n) (i j : Int) (values : List α)
    : Except Fault (Triplet α m n) :=
  if h : (0 ≤ i ∧ i + values.length ≤ m) ∧ 0 ≤ j ∧ j + values.length ≤ n then
    t.append (diagonal i.toNat j.toNat values (by omega) (by omega))
  else .error (.diagonalOutside values.length i j m n)

/-- The entries of a `p × q` matrix below its transpose: the transpose in the rows before `q`
and the columns from `q` on, then the matrix in the rows from `q` on and the columns before.
-/
def crossBlocks {p q : Nat} (es : List (Entry α p q)) (hm : p + q ≤ m) (hn : p + q ≤ n)
    : List (Entry α m n) :=
  es.map (fun e => ⟨⟨e.col, by omega⟩, ⟨q + e.row, by omega⟩, e.value⟩)
    ++ es.map (fun e => ⟨⟨q + e.row, by omega⟩, ⟨e.col, by omega⟩, e.value⟩)

/-- Puts a matrix and its transpose in the two blocks beside the leading diagonal. -/
def putWithTranspose {p q : Nat} (t : Triplet α m n) (es : List (Entry α p q))
    : Except Fault (Triplet α m n) :=
  if h : p + q ≤ m ∧ p + q ≤ n then t.append (crossBlocks es h.1 h.2)
  else .error (.blocksOutside p q m n)

/-- One step of an assembly. -/
inductive Command (α : Type) where
  | start
  | put (i j : Int) (value : α)
  | diagonal (i j : Int) (values : List α)
  | matrix (a : Indexed α)

/-- Carries out one step. -/
def apply (t : Triplet α m n) : Command α → Except Fault (Triplet α m n)
  | .start => .ok t.start
  | .put i j value => t.put i j value
  | .diagonal i j values => t.putDiagonal i j values
  | .matrix a => t.putWithTranspose a.entries

/-- Carries out one step, or leaves everything as it was if the step fails. -/
def advance (t : Triplet α m n) (command : Command α) : Triplet α m n :=
  (t.apply command).toOption.getD t

/-- The canonical form by columns, repeated positions added up. -/
def toColumns [Add α] (t : Triplet α m n) : Columns α m n :=
  .canonical t.entries

/-- The matrix with every position filled in. -/
def toGrid [Zero α] [Add α] (t : Triplet α m n) : Grid α m n :=
  Entries.toGrid t.toColumns.entries

end Triplet

end InteriorPoint
