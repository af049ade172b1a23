import InteriorPoint.Linear.Kernel
import InteriorPoint.Proofs.Denotation
import InteriorPoint.Proofs.LeastNorm
import InteriorPoint.Report.Kind

/-! The four products of a sparse matrix are those of the matrix that it means, whatever format it
has and whichever entries repeat. Products are written over arrays, and the array that is written
may be the one that is multiplied.
-/

namespace InteriorPoint

open scoped Matrix

variable {α : Type} [Field α] [LinearOrder α] {m n : Nat}

-----------------------------------------------------------------------------------------
-- Products of entries
-----------------------------------------------------------------------------------------

namespace Kernel

theorem isOne_iff (alpha : α)
    : isOne alpha = true ↔ alpha = 1 := by
  rw [isOne, Bool.and_eq_true, decide_eq_true_iff, decide_eq_true_iff, le_antisymm_iff]

/-- A factor of one, by which nothing is multiplied, makes no exception. -/
theorem get_scale (alpha : α) (x : Vector α n)
    : (scale alpha x).get = alpha • x.get := by
  rw [scale]
  split
  · next one => rw [(isOne_iff alpha).mp one, one_smul]
  · funext i
    simp [mul_comm]

theorem get_mulVec (alpha : α) (es : List (Entry α m n)) (x : Vector α n)
    : (mulVec alpha es x).get = alpha • (Entries.toMatrix es *ᵥ x.get) := by
  rw [mulVec, get_scale, Entries.get_mulVec]

theorem get_trMulVec (alpha : α) (es : List (Entry α m n)) (x : Vector α m)
    : (trMulVec alpha es x).get = alpha • ((Entries.toMatrix es)ᵀ *ᵥ x.get) := by
  rw [trMulVec, get_scale, Entries.get_trMulVec]

omit [LinearOrder α] in
theorem get_addTrMulVec (out : Vector α n) (alpha : α) (es : List (Entry α m n)) (x : Vector α m)
    : (addTrMulVec out alpha es x).get = out.get + alpha • ((Entries.toMatrix es)ᵀ *ᵥ x.get) := by
  rw [addTrMulVec, get_addVec, ← Entries.get_trMulVec]
  congr 1
  funext i
  simp

omit [LinearOrder α] in
theorem toMatrix_ofEntries (es : List (Entry α m n))
    : Entries.toMatrix (Columns.ofEntries es).entries = Entries.toMatrix es := by
  ext i j
  rw [Columns.toMatrix_entries_apply, Columns.rowSum_ofEntries]

/-- Every entry of the row products is scaled, row by row. -/
theorem toMatrix_gramGrid (alpha : α) (es : List (Entry α m n))
    : (gramGrid alpha es).toMatrix = alpha • (Entries.toMatrix es * (Entries.toMatrix es)ᵀ) := by
  have products := Columns.toMatrix_timesTransposed es (.ofEntries es)
  rw [toMatrix_ofEntries] at products
  rw [← products]
  ext i j
  have row
      : (gramGrid alpha es).get i
        = scale alpha ((Columns.timesTransposed es (.ofEntries es)).get i) := by
    simp [gramGrid]
  exact (congrArg (Vector.get · j) row).trans (congrFun (get_scale alpha _) j)

-----------------------------------------------------------------------------------------
-- Products of a source
-----------------------------------------------------------------------------------------

/-- The shape of the array that a product of an `m × n` matrix is written over. -/
def outputShape (m n : Nat) : Kernel → List Nat
  | product => [m]
  | transposed | transposedAdd => [n]
  | gram => [m, m]

/-- The length of the vector that an `m × n` matrix is multiplied with, if there is one. -/
def inputLength? (m n : Nat) : Kernel → Option Nat
  | product => some n
  | transposed | transposedAdd => some m
  | gram => none

/-- A product by its definition, from the matrix and the arrays as they were before. -/
def dense (a : Matrix (Fin m) (Fin n) α) (alpha : α) (out x : Tensor α) : Kernel → Tensor α
  | product => .line (List.ofFn (alpha • (a *ᵥ (x.toVector n).get)))
  | transposed => .line (List.ofFn (alpha • (aᵀ *ᵥ (x.toVector m).get)))
  | transposedAdd =>
      .line (List.ofFn ((out.toVector n).get + alpha • (aᵀ *ᵥ (x.toVector m).get)))
  | gram => .ofGrid (.ofFn fun i j => (alpha • (a * aᵀ)) i j)

/-- The operand that a source becomes stands for the matrix that the source means. -/
theorem operand_of_denotes (kernel : Kernel) {source : MatrixSource α}
    {a : Matrix (Fin m) (Fin n) α} (means : source.Denotes a)
    : ∃ es, kernel.operand source = .ok ⟨m, n, es⟩ ∧ Entries.toMatrix es = a := by
  obtain ⟨es, stored, sums⟩ := means.toStored
  have canonical : Entries.toMatrix (Columns.canonical es).entries = a := by
    rw [Columns.toMatrix_canonical, sums]
  cases means with
  | nested rows some_row height widths entries =>
      refine ⟨_, ?_, canonical⟩
      simp only [operand, MatrixSource.toSparse, stored]
      rfl
  | dense values entries =>
      refine ⟨(Stored.ofGrid (.ofFn fun i j => a i j)).entries, ?_, ?_⟩
      · have same
            : (Grid.ofFn fun i j => values.toArray.getD (i * n + j) 0 : Grid α m n)
              = .ofFn fun i j => a i j := by
          refine Grid.ext_entry fun i j => ?_
          rw [Grid.entry_ofFn, Grid.entry_ofFn, entries]
          simp [List.getD_eq_getElem?_getD]
        simp only [operand, Tensor.grid?, same]
        rfl
      · rw [toMatrix_ofGrid]
        ext i j
        simp [Grid.toMatrix]
  | coordinates es sums =>
      cases kernel with
      | gram => exact ⟨_, rfl, (Columns.toMatrix_canonical es).trans sums.symm⟩
      | product | transposed | transposedAdd => exact ⟨es, rfl, sums.symm⟩
  | compressedRows es sums => exact ⟨es, rfl, sums.symm⟩
  | compressedColumns column inside sums' => exact ⟨es, stored, sums⟩

/-- The fault of a call, if the shapes do not fit; the shape of the output comes first. -/
def fault? (kernel : Kernel) (m n : Nat) (out x : Tensor α) : Option Fault :=
  if out.shape = kernel.outputShape m n then
    (kernel.inputLength? m n).bind fun length =>
      if x.shape = [length] then none else some (.inputShape kernel x.shape [length])
  else some (.outputShape kernel out.shape (kernel.outputShape m n))

omit [Field α] [LinearOrder α] in
theorem fault?_eq_none_iff {kernel : Kernel} {out x : Tensor α}
    : kernel.fault? m n out x = none
      ↔ out.shape = kernel.outputShape m n
        ∧ ∀ length, kernel.inputLength? m n = some length → x.shape = [length] := by
  rw [fault?]
  split
  · next output =>
      cases kernel.inputLength? m n with
      | none => simp [output]
      | some length => simp [output]
  · next output => simp [output]

omit [Field α] [LinearOrder α] in
theorem kind_of_fault? {kernel : Kernel} {out x : Tensor α} {fault : Fault}
    (found : kernel.fault? m n out x = some fault)
    : fault.kind = .value := by
  rw [fault?] at found
  split at found
  · obtain ⟨length, -, found⟩ := Option.bind_eq_some_iff.mp found
    split at found
    · cases found
    · obtain rfl := Option.some.inj found
      rfl
  · obtain rfl := Option.some.inj found
    rfl

/-- A product of entries is the one of their matrix where the shapes fit, and a fault elsewhere. -/
theorem run_eq (kernel : Kernel) (out x : Tensor α) (alpha : α) (es : List (Entry α m n))
    : kernel.run out alpha ⟨m, n, es⟩ x
      = match kernel.fault? m n out x with
        | none => .ok (kernel.dense (Entries.toMatrix es) alpha out x)
        | some fault => .error fault := by
  have vector {k : Nat} {v : Vector α k} {f : Fin k → α} (values : v.get = f)
      : (⟨[k], v.toList⟩ : Tensor α) = .line (List.ofFn f) := by
    rw [toList_eq_ofFn, values, Tensor.line, List.length_ofFn]
  have grid : Tensor.ofGrid (gramGrid alpha es) = gram.dense (Entries.toMatrix es) alpha out x := by
    refine congrArg Tensor.ofGrid (Grid.ext_entry fun i j => ?_)
    rw [Grid.entry_ofFn, ← toMatrix_gramGrid]
    rfl
  cases kernel with
  | product =>
      by_cases output : out.shape = [m]
      · by_cases input : x.shape = [n]
        · simpa [run, fault?, outputShape, inputLength?, dense, output, input]
            using vector (get_mulVec alpha es (x.toVector n))
        · simp [run, fault?, outputShape, inputLength?, output, input]
      · simp [run, fault?, outputShape, output]
  | transposed =>
      by_cases output : out.shape = [n]
      · by_cases input : x.shape = [m]
        · simpa [run, fault?, outputShape, inputLength?, dense, output, input]
            using vector (get_trMulVec alpha es (x.toVector m))
        · simp [run, fault?, outputShape, inputLength?, output, input]
      · simp [run, fault?, outputShape, output]
  | transposedAdd =>
      by_cases output : out.shape = [n]
      · by_cases input : x.shape = [m]
        · simpa [run, fault?, outputShape, inputLength?, dense, output, input]
            using vector (get_addTrMulVec (out.toVector n) alpha es (x.toVector m))
        · simp [run, fault?, outputShape, inputLength?, output, input]
      · simp [run, fault?, outputShape, output]
  | gram =>
      by_cases output : out.shape = [m, m]
      · simpa [run, fault?, outputShape, inputLength?, output] using grid
      · simp [run, fault?, outputShape, output]

omit [LinearOrder α] in
theorem transpose_dense_gram (a : Matrix (Fin m) (Fin n) α) (alpha : α) (out x : Tensor α)
    : (gram.dense a alpha out x).transpose = gram.dense a alpha out x := by
  have symmetric : (alpha • (a * aᵀ))ᵀ = alpha • (a * aᵀ) := by
    rw [Matrix.transpose_smul, Matrix.transpose_mul, Matrix.transpose_transpose]
  rw [dense, Tensor.transpose_ofGrid]
  refine congrArg Tensor.ofGrid (Grid.ext_entry fun i j => ?_)
  rw [Grid.transpose, Grid.entry_ofFn, Grid.entry_ofFn, Grid.entry_ofFn]
  exact congrFun (congrFun symmetric i) j

/-- A source that means a matrix has the products of that matrix. Row products of columns are made
the other way round, which makes no difference since they are symmetric.
-/
theorem runSource_eq (kernel : Kernel) {source : MatrixSource α} {a : Matrix (Fin m) (Fin n) α}
    (means : source.Denotes a) (out x : Tensor α) (alpha : α)
    : kernel.runSource out alpha source x
      = match kernel.fault? m n out x with
        | none => .ok (kernel.dense a alpha out x)
        | some fault => .error fault := by
  obtain ⟨es, operand, rfl⟩ := kernel.operand_of_denotes means
  rw [← kernel.run_eq out x alpha es]
  cases means with
  | nested _ _ _ _ _ | coordinates _ _ | compressedRows _ _ => simp only [runSource, operand]
  | dense values entries =>
      simp only [runSource, operand, Tensor.rank, List.length_cons, List.length_nil, if_true]
  | compressedColumns _ _ _ =>
      simp only [runSource, operand]
      split
      · next same =>
          subst same
          rw [run_eq]
          split
          · exact congrArg Except.ok (transpose_dense_gram ..)
          · rfl
      · rfl

-----------------------------------------------------------------------------------------
-- Products that are written over arrays
-----------------------------------------------------------------------------------------

/-- Writes a product over an array, if the shapes fit. Arrays go by number, and the array that is
written may be the one that is multiplied.
-/
def write (kernel : Kernel) (source : MatrixSource α) (alpha : α) (out x : Nat)
    (arrays : Nat → Tensor α)
    : Except Fault Unit × (Nat → Tensor α) :=
  match kernel.runSource (arrays out) alpha source (arrays x) with
  | .ok result => (.ok (), Function.update arrays out result)
  | .error fault => (.error fault, arrays)

section Write

variable {source : MatrixSource α} {a : Matrix (Fin m) (Fin n) α} (means : source.Denotes a)
  (kernel : Kernel) (alpha : α) (out x : Nat) (arrays : Nat → Tensor α)

include means

theorem write_eq_ok (output : (arrays out).shape = kernel.outputShape m n)
    (input : ∀ length, kernel.inputLength? m n = some length → (arrays x).shape = [length])
    : kernel.write source alpha out x arrays
      = (.ok (), Function.update arrays out (kernel.dense a alpha (arrays out) (arrays x))) := by
  rw [write, kernel.runSource_eq means, fault?_eq_none_iff.mpr ⟨output, input⟩]

theorem write_eq_error
    (misfit
      : (arrays out).shape ≠ kernel.outputShape m n
        ∨ ∃ length, kernel.inputLength? m n = some length ∧ (arrays x).shape ≠ [length])
    : ∃ fault,
        kernel.write source alpha out x arrays = (.error fault, arrays) ∧ fault.kind = .value := by
  cases found : kernel.fault? m n (arrays out) (arrays x) with
  | none =>
      obtain ⟨output, input⟩ := fault?_eq_none_iff.mp found
      rcases misfit with unlike | ⟨length, length_eq, unlike⟩
      · exact absurd output unlike
      · exact absurd (input length length_eq) unlike
  | some fault =>
      refine ⟨fault, ?_, kind_of_fault? found⟩
      rw [write, kernel.runSource_eq means, found]

end Write

end Kernel

namespace MatrixSource

/-- What the products of a source come to that means a matrix. Each is written over its array as
defined, from the values that the arrays had before; a shape that does not fit is a bad value and
leaves all arrays as they are. Product and transposed product are adjoint, row products take a
vector through one and then the other, and they are as definite as the rows are independent.
-/
structure HasProductsOf (source : MatrixSource α) (a : Matrix (Fin m) (Fin n) α) : Prop where
  product
    : ∀ (alpha : α) (out x : Nat) (arrays : Nat → Tensor α),
        (arrays out).shape = [m]
        → (arrays x).shape = [n]
        → Kernel.product.write source alpha out x arrays
          = (.ok (),
              Function.update arrays out
                (.line (List.ofFn (alpha • (a *ᵥ ((arrays x).toVector n).get)))))
  transposed
    : ∀ (alpha : α) (out x : Nat) (arrays : Nat → Tensor α),
        (arrays out).shape = [n]
        → (arrays x).shape = [m]
        → Kernel.transposed.write source alpha out x arrays
          = (.ok (),
              Function.update arrays out
                (.line (List.ofFn (alpha • (aᵀ *ᵥ ((arrays x).toVector m).get)))))
  transposedAdd
    : ∀ (alpha : α) (out x : Nat) (arrays : Nat → Tensor α),
        (arrays out).shape = [n]
        → (arrays x).shape = [m]
        → Kernel.transposedAdd.write source alpha out x arrays
          = (.ok (),
              Function.update arrays out
                (.line
                  (List.ofFn
                    (((arrays out).toVector n).get
                      + alpha • (aᵀ *ᵥ ((arrays x).toVector m).get)))))
  gram
    : ∀ (alpha : α) (out x : Nat) (arrays : Nat → Tensor α),
        (arrays out).shape = [m, m]
        → Kernel.gram.write source alpha out x arrays
          = (.ok (),
              Function.update arrays out (.ofGrid (.ofFn fun i j => (alpha • (a * aᵀ)) i j)))
  refused
    : ∀ (kernel : Kernel) (alpha : α) (out x : Nat) (arrays : Nat → Tensor α),
        ((arrays out).shape ≠ kernel.outputShape m n
          ∨ ∃ length, kernel.inputLength? m n = some length ∧ (arrays x).shape ≠ [length])
        → ∃ fault,
            kernel.write source alpha out x arrays = (.error fault, arrays)
            ∧ fault.kind = .value
  adjoint
    : ∀ (alpha : α) (out out' x y u v : Tensor α),
        Kernel.product.runSource out alpha source x = .ok u
        → Kernel.transposed.runSource out' alpha source y = .ok v
        → (y.toVector m).get ⬝ᵥ (u.toVector m).get = (x.toVector n).get ⬝ᵥ (v.toVector n).get
  gram_mulVec
    : ∀ (alpha beta : α) (out out' out'' x y u v g : Tensor α),
        Kernel.transposed.runSource out alpha source y = .ok u
        → Kernel.product.runSource out' beta source u = .ok v
        → Kernel.gram.runSource out'' (beta * alpha) source x = .ok g
        → ∃ grid : Grid α m m,
            g = .ofGrid grid
            ∧ grid.toMatrix *ᵥ (y.toVector m).get = (v.toVector m).get
  gram_definite
    : ∀ out x g,
        Kernel.gram.runSource out 1 source x = .ok g
        → ∃ grid : Grid α m m,
            g = .ofGrid grid
            ∧ (∀ i j, grid.entry i j = grid.entry j i)
            ∧ (∀ v, 0 ≤ v ⬝ᵥ (grid.toMatrix *ᵥ v))
            ∧ (grid.IsPositiveDefinite ↔ LinearIndependent α a.row)

/-- Every source that means a matrix has the products of that matrix. -/
theorem hasProductsOf [IsStrictOrderedRing α] (source : MatrixSource α)
    (a : Matrix (Fin m) (Fin n) α) (means : source.Denotes a)
    : source.HasProductsOf a := by
  have answer {kernel : Kernel} {out x t : Tensor α} {alpha : α}
      (made : kernel.runSource out alpha source x = .ok t)
      : t = kernel.dense a alpha out x := by
    rw [kernel.runSource_eq means] at made
    split at made
    · exact (Except.ok.inj made).symm
    · cases made
  have values {k : Nat} (f : Fin k → α) : ((Tensor.line (List.ofFn f)).toVector k).get = f := by
    rw [← Vector.toList_ofFn, Tensor.toVector_line, get_ofFn]
  have products (alpha : α)
      : (Grid.ofFn fun i j => (alpha • (a * aᵀ)) i j : Grid α m m).toMatrix
        = alpha • (a * aᵀ) := by
    ext i j
    simp only [Grid.toMatrix, Matrix.of_apply, Grid.entry_ofFn]
  exact {
    product := fun alpha out x arrays output input =>
      Kernel.product.write_eq_ok means alpha out x arrays output
        fun length length_eq => Option.some.inj length_eq ▸ input
    transposed := fun alpha out x arrays output input =>
      Kernel.transposed.write_eq_ok means alpha out x arrays output
        fun length length_eq => Option.some.inj length_eq ▸ input
    transposedAdd := fun alpha out x arrays output input =>
      Kernel.transposedAdd.write_eq_ok means alpha out x arrays output
        fun length length_eq => Option.some.inj length_eq ▸ input
    gram := by
      intro alpha out x arrays output
      refine Kernel.gram.write_eq_ok means alpha out x arrays output fun length length_eq => ?_
      cases length_eq
    refused := fun kernel alpha out x arrays misfit =>
      kernel.write_eq_error means alpha out x arrays misfit
    adjoint := by
      intro alpha out out' x y u v first second
      rw [answer first, answer second, Kernel.dense, Kernel.dense, values, values,
        dotProduct_smul, dotProduct_smul, Matrix.dotProduct_mulVec, ← Matrix.mulVec_transpose,
        dotProduct_comm]
    gram_mulVec := by
      intro alpha beta out out' out'' x y u v g first second third
      refine ⟨_, answer third, ?_⟩
      rw [answer second, Kernel.dense, values, answer first, Kernel.dense, values, products,
        Matrix.smul_mulVec, Matrix.mulVec_smul, Matrix.mulVec_mulVec, smul_smul]
    gram_definite := by
      intro out x g made
      have product := products 1
      rw [one_smul] at product
      have symmetric : (a * aᵀ)ᵀ = a * aᵀ := by
        rw [Matrix.transpose_mul, Matrix.transpose_transpose]
      refine ⟨_, answer made, ?_, ?_, ?_⟩
      · intro i j
        rw [Grid.entry_ofFn, Grid.entry_ofFn, one_smul]
        exact congrFun (congrFun symmetric j) i
      · intro v
        rw [products, one_smul, dotProduct_mul_transpose]
        exact Finset.sum_nonneg fun j _ => mul_self_nonneg _
      · rw [one_smul]
        exact Grid.isPositiveDefinite_iff product
  }

/-- Columns in which a row is repeated and out of order are multiplied with an array that the
product is written over.
-/
theorem hasProductsOf_repeatedRow
    : ∃ (source : MatrixSource ℚ) (a : Matrix (Fin 2) (Fin 2) ℚ),
        source = .compressedColumns ⟨2, 2, #v[[(1, 2), (0, 1), (1, -1)], []]⟩
        ∧ a = !![1, 0; 1, 0]
        ∧ source.Denotes a
        ∧ source.HasProductsOf a
        ∧ (Kernel.product.write source 3 0 0 fun _ => .line [1, 5]).2 0 = .line [3, 3] := by
  have means
      : (compressedColumns ⟨2, 2, #v[[(1, 2), (0, 1), (1, -1)], []]⟩ : MatrixSource ℚ).Denotes
          (!![1, 0; 1, 0] : Matrix (Fin 2) (Fin 2) ℚ) :=
    .compressedColumns _ (by decide) fun i j => by
      fin_cases i <;> fin_cases j <;> decide +kernel
  have products := hasProductsOf _ _ means
  refine ⟨_, _, rfl, rfl, means, products, ?_⟩
  rw [products.product 3 0 0 _ rfl rfl]
  dsimp only
  rw [Function.update_self]
  exact congrArg Tensor.line (by decide +kernel)

end MatrixSource

end InteriorPoint
