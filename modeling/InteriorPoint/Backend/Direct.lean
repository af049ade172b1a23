import InteriorPoint.Backend.Engine
import InteriorPoint.Linear.Elimination
import InteriorPoint.Setting.Value

/-! The two direct engines. Both eliminate with row exchanges; they differ in what they check
and in what they say about a singular matrix.
-/

namespace InteriorPoint

/-- The engines that can be asked for by name. -/
inductive Direct where
  | sparse
  | dense
  deriving DecidableEq, Repr

namespace Direct

/-- The name of an engine. -/
def name : Direct → String
  | sparse => "superlu"
  | dense => "dense"

/-- The names that can be asked for, in alphabetical order. -/
def names : List String :=
  [dense.name, sparse.name]

/-- The engine used when none is asked for. -/
def standard : Direct :=
  sparse

/-- The engine of a name in any mixture of cases. -/
def ofName? (text : String) : Option Direct :=
  let lower := String.ofList (text.toList.map Char.toLower)
  if lower = sparse.name then some sparse
  else if lower = dense.name then some dense
  else none

/-- The engine that a setting asks for; only texts can be names. -/
def ofValue? : Setting.Value → Option Direct
  | .text s => ofName? s
  | _ => none

/-- What is said of a setting that names no engine. -/
def unknownMessage (value : Setting.Value) : String :=
  "Unknown linear solver " ++ value.render ++ "; choose from "
    ++ (Setting.Value.list (names.map .text)).render

/-- The column ordering of the sparse engine, which follows from the symmetry flag. -/
def ordering (symmetric : Bool) : String :=
  if symmetric then "MMD_AT_PLUS_A" else "COLAMD"

variable {α : Type} [Zero α] [Add α] [Sub α] [Mul α] [Div α] [Neg α] [LT α] [LE α]
  [DecidableLT α] [DecidableLE α]

/-- Factors and then looks at the pivots, all of which have to be finite. An undefined entry is
no pivot.
-/
def factorSparse {size : Nat} (t : Triplet α size size)
    : Except FactorFault (Elimination α size) :=
  match Elimination.factor Elimination.pivotRow? 1 t.toGrid with
  | .error _ => .error .singular
  | .ok factors =>
      if factors.pivots.all isFinite then .ok factors else .error .factorNotFinite

/-- Looks at the matrix, all of which has to be finite, and then factors. Of the factors only a
zero pivot is noticed, so where an overflow leaves undefined entries alone one of them is taken.
-/
def factorDense {size : Nat} (t : Triplet α size size)
    : Except FactorFault (Elimination α size) :=
  let a := t.toGrid
  if a.all allFinite then
    match Elimination.factor Elimination.definedFirstRow? 1 a with
    | .error number => .error (.zeroPivot number)
    | .ok factors => .ok factors
  else .error .matrixNotFinite

/-- The engine itself; it keeps nothing between factorizations. -/
def engine (kind : Direct) : Engine α Unit where
  name := kind.name
  Factors := Elimination α
  factorize t _ :=
    (match kind with
      | sparse => factorSparse t
      | dense => factorDense t, ())
  solve factors transposed rhs _ :=
    (.ok (if transposed then factors.solveTransposed rhs else factors.solve rhs), ())
  release _ := ()

end Direct

end InteriorPoint
