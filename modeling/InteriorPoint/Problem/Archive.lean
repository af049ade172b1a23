import InteriorPoint.File.Path
import InteriorPoint.Problem.Basic
import InteriorPoint.Text.Quoted

/-! Problem files: the arrays that describe a problem, under fixed names. What is known of the
optimum is not kept.
-/

namespace InteriorPoint

/-- The arrays of a problem file, any of which may be missing. -/
structure Archive where
  name : Option String
  values : Option (Tensor Float)
  rows : Option (Tensor Int)
  pointers : Option (Tensor Int)
  shape : Option (Tensor Int)
  rightSide : Option (Tensor Float)
  cost : Option (Tensor Float)

namespace Archive

/-- The parts of an archive. -/
inductive Part where
  | name
  | values
  | rows
  | pointers
  | shape
  | rightSide
  | cost
  deriving DecidableEq, Repr

/-- The key of a part in problem files. -/
def Part.key : Part → String
  | name => "name"
  | values => "data"
  | rows => "indices"
  | pointers => "indptr"
  | shape => "shape"
  | rightSide => "b"
  | cost => "c"

/-- The parts without which there is no problem. -/
def Part.required : List Part :=
  [values, rows, pointers, shape, rightSide, cost]

/-- Whether an archive has a part. -/
def has (a : Archive) : Part → Bool
  | .name => a.name.isSome
  | .values => a.values.isSome
  | .rows => a.rows.isSome
  | .pointers => a.pointers.isSome
  | .shape => a.shape.isSome
  | .rightSide => a.rightSide.isSome
  | .cost => a.cost.isSome

/-- Why an array does not say the shape of a matrix. -/
inductive ShapeFault where
  | scalar
  | nested
  | empty
  | length (lengths : List Int)
  | negative

def ShapeFault.message : ShapeFault → String
  | scalar => "iteration over a 0-d array"
  | nested => "only 0-dimensional arrays can be converted to Python scalars"
  | empty => "max() arg is an empty sequence"
  | length lengths => "shape must have length in (2,). Got new_shape=" ++ tupleText ", " lengths
  | negative => "'shape' elements cannot be negative"

/-- Why an archive holds no problem. -/
inductive Fault where
  | missing (path : Path) (parts : List Part)
  | shape (fault : ShapeFault)
  | storage (fault : StorageFault)

def Fault.message : Fault → String
  | missing path parts =>
      path.text ++ ": missing arrays ["
        ++ ", ".intercalate (parts.map fun part => Text.quoted part.key) ++ "]"
  | shape fault => fault.message
  | storage fault => fault.message

/-- A text as it is read back: without the null characters at its end. -/
def readText (text : String) : String :=
  String.ofList (text.toList.reverse.dropWhile (· == '\x00')).reverse

/-- The archive of a problem. -/
def ofProblem (p : Problem Float) : Archive where
  name := some p.name
  values := some (.line p.matrix.values)
  rows := some (.line p.matrix.indices)
  pointers := some (.line (p.matrix.pointers.map Int.ofNat))
  shape := some (.line (p.shape.map Int.ofNat))
  rightSide := some (.line p.rightSide)
  cost := some (.line p.cost)

/-- The required parts that are missing. -/
def missing (a : Archive) : List Part :=
  Part.required.filter fun part => !a.has part

/-- The numbers of rows and columns that an array says. -/
def shapeOf (shape : Tensor Int) : Except ShapeFault (Nat × Nat) :=
  match shape.rank, shape.values with
  | 0, _ => .error .scalar
  | 1, [] => .error .empty
  | 1, [m, n] => if m < 0 ∨ n < 0 then .error .negative else .ok (m.toNat, n.toNat)
  | 1, lengths => .error (.length lengths)
  | _, _ => .error .nested

/-- The matrix that compressed columns of a given shape stand for. -/
def matrix (values : Tensor Float) (rows pointers shape : Tensor Int)
    : Except Fault (Loose Float) := do
  let (m, n) ← (shapeOf shape).mapError .shape
  if values.rank ≠ 1 ∨ rows.rank ≠ 1 ∨ pointers.rank ≠ 1 then throw (.storage .notLines)
  (Loose.ofCompressed m n pointers.values rows.values values.values).mapError .storage

/-- The problem in an archive. One without a name is called after the file. -/
def problem (path : Path) : Archive → Except Fault (Problem Float)
  | { name, values := some values, rows := some rows, pointers := some pointers,
      shape := some shape, rightSide := some rightSide, cost := some cost } =>
      (matrix values rows pointers shape).map fun matrix =>
        { name := (name.map readText).getD path.stem
          matrix := matrix.canonical
          rightSide := rightSide.values
          cost := cost.values
          expectedX := none
          expectedObjective := none }
  | archive => .error (.missing path archive.missing)

end Archive

end InteriorPoint
