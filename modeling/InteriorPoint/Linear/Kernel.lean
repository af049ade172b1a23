import InteriorPoint.Linear.Stored

/-! The four products of a sparse matrix, scaled, with checks of the shapes involved. A call
with a wrong shape answers with a fault and no array.
-/

namespace InteriorPoint

/-- The products of a matrix `A`: `A x`, `Aᵀ x`, `out + Aᵀ x` and `A Aᵀ`. -/
inductive Kernel where
  | product
  | transposed
  | transposedAdd
  | gram
  deriving DecidableEq

namespace Kernel

/-- The name of a product in messages. -/
def name : Kernel → String
  | product => "mat_vec_mul"
  | transposed => "mat_tr_vec_mul"
  | transposedAdd => "mat_tr_vec_mul_add"
  | gram => "mat_mat_tr_mul"

/-- Why a product is refused. -/
inductive Fault where
  | storage (fault : StorageFault)
  | noLength
  | tooFewLengths (found : Nat)
  | tooManyLengths
  | innerLengths (left right : Nat)
  | outputShape (kernel : Kernel) (found expected : List Nat)
  | inputShape (kernel : Kernel) (found expected : List Nat)
  | stackShape (found expected : List Nat)

def Fault.message : Fault → String
  | storage fault => fault.message
  | noLength => "tuple index out of range"
  | tooFewLengths found =>
      "not enough values to unpack (expected 2, got " ++ toString found ++ ")"
  | tooManyLengths => "too many values to unpack (expected 2)"
  | innerLengths left right =>
      "matmul: Input operand 1 has a mismatch in its core dimension 0, with gufunc signature "
        ++ "(n?,k),(k,m?)->(n?,m?) (size " ++ toString right ++ " is different from "
        ++ toString left ++ ")"
  | outputShape kernel found expected =>
      kernel.name ++ ": output has shape " ++ shapeText found ++ ", expected "
        ++ shapeText expected
  | inputShape kernel found expected =>
      kernel.name ++ ": x has shape " ++ shapeText found ++ ", expected " ++ shapeText expected
  | stackShape found expected => broadcastMessage found expected

section Scale

variable {α : Type} [One α] [Mul α] [LE α] [DecidableLE α]

/-- Whether a factor is one. -/
def isOne (alpha : α) : Bool :=
  decide (alpha ≤ 1) && decide (1 ≤ alpha)

/-- Multiplies by a factor afterwards, unless it is one. -/
def scale {n : Nat} (alpha : α) (x : Vector α n) : Vector α n :=
  if isOne alpha then x else x.map (· * alpha)

end Scale

variable {α : Type} [Zero α] [One α] [Add α] [Mul α] [LE α] [DecidableLE α]

/-- `alpha A x`. -/
def mulVec {m n : Nat} (alpha : α) (es : List (Entry α m n)) (x : Vector α n) : Vector α m :=
  scale alpha (Entries.mulVec es x)

/-- `alpha Aᵀ x`. -/
def trMulVec {m n : Nat} (alpha : α) (es : List (Entry α m n)) (x : Vector α m) : Vector α n :=
  scale alpha (Entries.trMulVec es x)

/-- `out + alpha Aᵀ x`. -/
def addTrMulVec {m n : Nat} (out : Vector α n) (alpha : α) (es : List (Entry α m n))
    (x : Vector α m)
    : Vector α n :=
  addVec out ((Entries.trMulVec es x).map (alpha * ·))

/-- `alpha A Aᵀ`, with every entry written out. -/
def gramGrid {m n : Nat} (alpha : α) (es : List (Entry α m n)) : Grid α m m :=
  (Columns.timesTransposed es (.ofEntries es)).map (scale alpha)

/-- Writes `alpha` times a product over `out`, or adds it there, if the shapes fit; the shape
of the output is looked at first.
-/
def run (kernel : Kernel) (out : Tensor α) (alpha : α) (a : Stored α) (x : Tensor α)
    : Except Fault (Tensor α) :=
  let inputSize := if kernel = product then a.cols else a.rows
  let outputShape :=
    match kernel with
    | product => [a.rows]
    | transposed | transposedAdd => [a.cols]
    | gram => [a.rows, a.rows]
  if out.shape ≠ outputShape then .error (.outputShape kernel out.shape outputShape)
  else
    match kernel with
    | gram => .ok (.ofGrid (gramGrid alpha a.entries))
    | _ =>
        if x.shape ≠ [inputSize] then .error (.inputShape kernel x.shape [inputSize])
        else
          .ok ⟨outputShape,
            match kernel with
            | product => (mulVec alpha a.entries (x.toVector a.cols)).toList
            | transposed => (trMulVec alpha a.entries (x.toVector a.rows)).toList
            | _ => (addTrMulVec (out.toVector a.cols) alpha a.entries (x.toVector a.rows)).toList⟩

/-- The shape of the product of an array with its transpose, where the array has more than two
indices. The last two belong to the matrices of a stack; the lengths of two stacks fit if they
are equal or one of them is one.
-/
def stackedGramShape (shape : List Nat) : List Nat :=
  let outer (lengths : List Nat) : List Nat := lengths.dropLast.dropLast
  List.zipWith (fun a b => if a = 1 then b else a) (outer shape) (outer shape.reverse)
    ++ [shape.dropLast.getLast?.getD 0, shape.headD 0]

/-- The product of an array with its transpose where the array has one index, or more than two.
One index gives the inner product in all places; with more of them only a stack of one number
fits the output.
-/
def gramOfTensor (out : Tensor α) (alpha : α) (t : Tensor α) : Except Fault (Tensor α) :=
  match t.shape with
  | [] => .error .noLength
  | m :: rest =>
      if out.shape ≠ [m, m] then .error (.outputShape gram out.shape [m, m])
      else
        let inner := (t.values.map fun x => x * x).foldl (· + ·) 0
        let product : Tensor α := ⟨[m, m], (scale alpha (Vector.replicate (m * m) inner)).toList⟩
        match rest with
        | [] => .ok product
        | second :: _ =>
            let last := t.shape.getLast?.getD 0
            let found := stackedGramShape t.shape
            if last ≠ second then .error (.innerLengths last second)
            else if found.all (· == 1) then .ok product
            else .error (.stackShape (dropOnes 2 found) [m, m])

/-- The entries of an operand in the order in which they take part. Lists are brought into
canonical form first, and coordinates too where rows are multiplied with each other; an array
takes part with its zeros.
-/
def operand (kernel : Kernel) : MatrixSource α → Except StorageFault (Stored α)
  | .nested values => (MatrixSource.nested values).toSparse.map .ofSparse
  | .coordinates matrix =>
      .ok (if kernel = gram then .ofSparse matrix.canonical else matrix)
  | .dense t =>
      match t.grid? with
      | some ⟨_, _, a⟩ => .ok (.ofGrid a)
      | none => .error (.dimensions t.rank)
  | source => source.toStored

/-- Writes a product with an operand in any format. An array needs two indices, unless it is
multiplied with its own transpose. Where a matrix by columns is multiplied with its transpose,
the entries of the latter contribute one after another.
-/
def runSource (kernel : Kernel) (out : Tensor α) (alpha : α) (a : MatrixSource α)
    (x : Tensor α)
    : Except Fault (Tensor α) :=
  let viaEntries : Except Fault (Tensor α) :=
    match kernel.operand a with
    | .ok stored => kernel.run out alpha stored x
    | .error fault => .error (.storage fault)
  match a with
  | .compressedColumns _ =>
      if kernel = gram then viaEntries.map Tensor.transpose else viaEntries
  | .dense t =>
      if t.rank = 2 then viaEntries
      else if kernel = gram then gramOfTensor out alpha t
      else if t.rank < 2 then .error (.tooFewLengths t.rank)
      else .error .tooManyLengths
  | _ => viaEntries

end Kernel

end InteriorPoint
