import InteriorPoint.Backend.Direct
import InteriorPoint.Linear.Stored
import InteriorPoint.Method.Program

/-! From matrices, vectors and settings as they are handed over to a program that fits
together. Faults are looked for in a fixed order: vectors, matrix, settings, dimensions, shape
and last the name of the engine.
-/

namespace InteriorPoint

/-- Why a matrix and two vectors make no program. -/
inductive DimensionFault where
  | empty (cols rows : Nat)
  | shape (rows cols matrixRows matrixCols : Nat)
  deriving DecidableEq, Repr

def DimensionFault.message : DimensionFault → String
  | empty cols rows =>
      "Problem dimensions must be positive, got Nx=" ++ toString cols ++ ", Nl="
        ++ toString rows
  | shape rows cols matrixRows matrixCols =>
      "A must have shape (Nl, Nx) = " ++ shapeText [rows, cols] ++ ", got "
        ++ shapeText [matrixRows, matrixCols]

/-- A linear program together with its dimensions. -/
structure AnyProgram (α : Type) where
  rows : Nat
  cols : Nat
  program : LinearProgram α rows cols

/-- Puts a program together if there are rows and columns and the lengths fit the matrix. -/
def AnyProgram.of {α : Type} (a : Sparse α) (rightSide cost : List α)
    : Except DimensionFault (AnyProgram α) :=
  if cost.length = 0 ∨ rightSide.length = 0 then
    .error (.empty cost.length rightSide.length)
  else if h : rightSide.length = a.rows ∧ cost.length = a.cols then
    .ok ⟨a.rows, a.cols, {
      matrix := a.columns
      rightSide := ⟨rightSide.toArray, by simpa using h.1⟩
      cost := ⟨cost.toArray, by simpa using h.2⟩ }⟩
  else .error (.shape rightSide.length cost.length a.rows a.cols)

/-- Why no solver can be set up. -/
inductive SetupFault where
  | vectors (fault : NestingFault)
  | vectorRanks (b c : Nat)
  | matrix (fault : StorageFault)
  | config (fault : Config.Fault)
  | dimensions (fault : DimensionFault)
  | engine (value : Setting.Value)

def SetupFault.message : SetupFault → String
  | vectors fault => fault.message
  | vectorRanks b c =>
      "b and c must be 1-D, got ndim " ++ toString b ++ " and " ++ toString c
  | matrix fault => "Invalid constraint matrix: " ++ fault.message
  | config fault => fault.message
  | dimensions fault => fault.message
  | engine value => Direct.unknownMessage value

/-- A program and the configuration of its solver. -/
structure Posed where
  program : AnyProgram Float
  config : Config Float

/-- Sets up a program from a matrix in canonical form, and its configuration. -/
def Posed.ofSparse (a : Sparse Float) (b c : List Float) (settings : Setting.Value)
    : Except SetupFault Posed := do
  let config ← (Config.ofValue settings).mapError .config
  let program ← (AnyProgram.of a b c).mapError .dimensions
  pure { program, config }

/-- Sets up a program and its configuration. Nobody checks the rows of a matrix that is handed over
by columns, and products with one whose rows lie outside are not determined; so they have to lie
inside.
-/
def Posed.of (a : MatrixSource Float) (_ : a.IsInside) (b c : Nested Float)
    (settings : Setting.Value)
    : Except SetupFault Posed := do
  let b ← b.tensor.mapError .vectors
  let c ← c.tensor.mapError .vectors
  if b.rank ≠ 1 ∨ c.rank ≠ 1 then throw (.vectorRanks b.rank c.rank)
  let matrix ← a.toSparse.mapError .matrix
  Posed.ofSparse matrix b.values c.values settings

/-- Sets up a program, its configuration and the engine asked for. -/
def Posed.withEngine (a : MatrixSource Float) (inside : a.IsInside) (b c : Nested Float)
    (settings engine : Setting.Value)
    : Except SetupFault (Posed × Direct) := do
  let posed ← Posed.of a inside b c settings
  match Direct.ofValue? engine with
  | some kind => pure (posed, kind)
  | none => throw (.engine engine)

end InteriorPoint
