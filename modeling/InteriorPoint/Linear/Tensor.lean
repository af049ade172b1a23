/-! Arrays of any dimension, with their shape, and the nested lists they are given as. -/

namespace InteriorPoint

/-- Numbers nested to any depth. -/
inductive Nested (α : Type) where
  | number (x : α)
  | list (items : List (Nested α))

/-- An array: its shape, and its values with the last index running fastest. -/
structure Tensor (α : Type) where
  shape : List Nat
  values : List α

namespace Tensor

variable {α : Type}

/-- How many indices an entry has. -/
def rank (t : Tensor α) : Nat :=
  t.shape.length

/-- The array of one shape with the same value everywhere. -/
def filled (shape : List Nat) (x : α) : Tensor α :=
  ⟨shape, List.replicate (shape.foldl (· * ·) 1) x⟩

/-- The array of one index with these values. -/
def line (values : List α) : Tensor α :=
  ⟨[values.length], values⟩

/-- The values as a vector of known length, with zeros for those that are missing. -/
def toVector [Zero α] (t : Tensor α) (n : Nat) : Vector α n :=
  let values := t.values.toArray
  Vector.ofFn fun i => values.getD i 0

/-- Stacks arrays of one shape; with none there is only the count. -/
def stack? : List (Tensor α) → Option (Tensor α)
  | [] => some ⟨[0], []⟩
  | first :: rest =>
      if rest.all fun t => t.shape == first.shape then
        some ⟨(rest.length + 1) :: first.shape, (first :: rest).flatMap (·.values)⟩
      else none

end Tensor

mutual

/-- The array of a nesting of any depth, unless sublists of one level differ in shape. -/
def Nested.tensor? {α : Type} : Nested α → Option (Tensor α)
  | .number x => some ⟨[], [x]⟩
  | .list items => (Nested.tensors? items).bind Tensor.stack?

def Nested.tensors? {α : Type} : List (Nested α) → Option (List (Tensor α))
  | [] => some []
  | item :: rest => do
      let first ← item.tensor?
      let others ← Nested.tensors? rest
      pure (first :: others)

end

/-- Why a nesting spells out no array. -/
inductive NestingFault where
  | ragged
  | tooDeep
  deriving DecidableEq, Repr

/-- The most indices that the entries of an array may have. -/
def rankLimit : Nat := 64

def NestingFault.message : NestingFault → String
  | ragged => "setting an array element with a sequence."
  | tooDeep =>
      "setting an array element with a sequence. The requested array would exceed the maximum "
        ++ "number of dimension of " ++ toString rankLimit ++ "."

/-- The array that a nesting spells out, if it is not too deep. -/
def Nested.tensor {α : Type} (values : Nested α) : Except NestingFault (Tensor α) :=
  match values.tensor? with
  | none => .error .ragged
  | some t => if rankLimit < t.rank then .error .tooDeep else .ok t

/-- Numbers between parentheses. A single one is followed by a comma. -/
def tupleText {β : Type} [ToString β] (separator : String) : List β → String
  | [] => "()"
  | [n] => "(" ++ toString n ++ ",)"
  | ns => "(" ++ separator.intercalate (ns.map toString) ++ ")"

/-- A shape as messages show it: `()`, `(2,)`, `(1, 2)`. -/
def shapeText : List Nat → String :=
  tupleText ", "

/-- A shape without its leading ones, as long as so many lengths are left. -/
def dropOnes (rank : Nat) : List Nat → List Nat
  | 1 :: rest => if rank ≤ rest.length then dropOnes rank rest else 1 :: rest
  | shape => shape

/-- What is said about values whose shape cannot be spread over another one. -/
def broadcastMessage (found expected : List Nat) : String :=
  "could not broadcast input array from shape " ++ tupleText "," found ++ " into shape "
    ++ tupleText "," expected

end InteriorPoint
