import InteriorPoint.Method.Start
import InteriorPoint.Proofs.Nonsingular
import InteriorPoint.Proofs.Residual

/-! Least-norm solutions. Where the rows of a matrix are independent, the matrix of their inner
products is positive definite, so it is factored and its two systems are solved exactly.
-/

namespace InteriorPoint

open scoped Matrix

variable {α : Type} [Field α] {m n : Nat}

-----------------------------------------------------------------------------------------
-- The matrix of row products
-----------------------------------------------------------------------------------------

namespace Columns

/-- Adding the products of one entry adds the product of its matrix with the transposed one. -/
theorem toMatrix_addProducts (a : Columns α m n) (g : Grid α m m) (e : Entry α m n)
    : (a.addProducts g e).toMatrix
      = g.toMatrix + e.toMatrix * (Entries.toMatrix a.entries)ᵀ := by
  have general (column : List (Fin m × α)) (start : Grid α m m)
      : (column.foldl
            (fun g item => g.setEntry e.row item.1 (g.entry e.row item.1 + e.value * item.2))
            start).toMatrix
        = start.toMatrix
          + Matrix.of fun i k => if e.row = i then e.value * rowSum k column else 0 := by
    induction column generalizing start with
    | nil =>
        ext i k
        simp [rowSum]
    | cons item rest ih =>
        obtain ⟨row, value⟩ := item
        have added := Entries.toMatrix_setEntry start ⟨e.row, row, e.value * value⟩
        rw [List.foldl_cons, ih, added, add_assoc]
        congr 1
        ext i k
        by_cases hi : e.row = i <;> by_cases hk : row = k <;>
          simp [Entry.toMatrix, rowSum, hi, hk, mul_add]
  refine (general _ _).trans ?_
  congr 1
  ext i k
  rw [Entry.toMatrix, Matrix.of_apply]
  by_cases hi : e.row = i
  · subst hi
    rw [if_pos rfl, Matrix.single_mul_apply_same, Matrix.transpose_apply,
      toMatrix_entries_apply]
  · rw [if_neg hi, Matrix.single_mul_apply_of_ne _ _ _ _ _ (Ne.symm hi)]

/-- Row products of entries with stored columns are the product with the transposed matrix. -/
theorem toMatrix_timesTransposed (es : List (Entry α m n)) (a : Columns α m n)
    : (timesTransposed es a).toMatrix
      = Entries.toMatrix es * (Entries.toMatrix a.entries)ᵀ := by
  have general (start : Grid α m m)
      : (es.foldl a.addProducts start).toMatrix
        = start.toMatrix + Entries.toMatrix es * (Entries.toMatrix a.entries)ᵀ := by
    induction es generalizing start with
    | nil => simp
    | cons e es ih =>
        rw [List.foldl_cons, ih, toMatrix_addProducts, Entries.toMatrix_cons, Matrix.add_mul,
          add_assoc]
  have empty : (Grid.ofFn fun _ _ => 0 : Grid α m m).toMatrix = 0 := by
    ext i j
    simp [Grid.toMatrix]
  rw [timesTransposed, general, empty, zero_add]

/-- The matrix of row products is the product with the transposed matrix. -/
theorem toMatrix_gram (a : Columns α m n)
    : a.gram.toMatrix = Entries.toMatrix a.entries * (Entries.toMatrix a.entries)ᵀ :=
  toMatrix_timesTransposed a.entries a

end Columns

-----------------------------------------------------------------------------------------
-- Positive definite matrices are factored, and their systems solved
-----------------------------------------------------------------------------------------

section Definite

variable [LinearOrder α]

/-- A symmetric matrix whose quadratic form is positive. -/
structure Grid.IsPositiveDefinite (a : Grid α n n) : Prop where
  symmetric : ∀ i j, a.entry i j = a.entry j i
  positive : ∀ v, v ≠ 0 → 0 < v ⬝ᵥ (a.toMatrix *ᵥ v)

section Products

variable [IsStrictOrderedRing α]

theorem dotProduct_self_pos {v : Fin n → α} (nonzero : v ≠ 0)
    : 0 < v ⬝ᵥ v := by
  refine lt_of_le_of_ne ?_ fun zero => nonzero (dotProduct_self_eq_zero.mp zero.symm)
  exact Finset.sum_nonneg fun i _ => mul_self_nonneg _

omit [LinearOrder α] [IsStrictOrderedRing α] in
/-- The form of row products at multipliers is the square of the combination that they make. -/
theorem dotProduct_mul_transpose (a : Matrix (Fin m) (Fin n) α) (v : Fin m → α)
    : v ⬝ᵥ ((a * aᵀ) *ᵥ v) = (aᵀ *ᵥ v) ⬝ᵥ (aᵀ *ᵥ v) := by
  rw [← Matrix.mulVec_mulVec, Matrix.dotProduct_mulVec, ← Matrix.mulVec_transpose]

/-- Row products are positive definite if and only if the rows are independent. -/
theorem Grid.isPositiveDefinite_iff {g : Grid α m m} {a : Matrix (Fin m) (Fin n) α}
    (products : g.toMatrix = a * aᵀ)
    : g.IsPositiveDefinite ↔ LinearIndependent α a.row := by
  constructor
  · intro definite
    refine Matrix.vecMul_injective_iff.mp fun u v same => sub_eq_zero.mp ?_
    by_contra nonzero
    have vanishes : aᵀ *ᵥ (u - v) = 0 := by
      rw [Matrix.mulVec_transpose, Matrix.sub_vecMul, sub_eq_zero]
      exact same
    have form := definite.positive _ nonzero
    rw [products, dotProduct_mul_transpose, vanishes, zero_dotProduct] at form
    exact lt_irrefl 0 form
  · intro independent
    constructor
    · intro i j
      have symmetric : (g.toMatrix)ᵀ = g.toMatrix := by
        rw [products, Matrix.transpose_mul, Matrix.transpose_transpose]
      exact congrFun (congrFun symmetric j) i
    · intro v nonzero
      rw [products, dotProduct_mul_transpose]
      exact dotProduct_self_pos fun vanishes =>
        nonzero (eq_zero_of_independent independent vanishes)

end Products

namespace Definite

/-- The entries of the first row after the first column. -/
def firstRow (a : Grid α (n + 1) (n + 1)) : Vector α n :=
  Vector.ofFn fun j => a.entry ⟨0, n.succ_pos⟩ j.succ

/-- What one step of the factorization goes on with. -/
def schur (a : Grid α (n + 1) (n + 1)) : Grid α n n :=
  let corner : Fin (n + 1) := ⟨0, n.succ_pos⟩
  a.remainder (firstRow a) ((firstRow a).map (· / a.entry corner corner))

/-- One step of the factorization over a field: the pivot is all in the lower triangle, and the
upper one has ones on its diagonal.
-/
def firstStep (a : Grid α (n + 1) (n + 1)) (rest : Definite α n) : Definite α (n + 1) :=
  let corner : Fin (n + 1) := ⟨0, n.succ_pos⟩
  .step (a.entry corner corner) 1 (firstRow a) ((firstRow a).map (· / a.entry corner corner)) rest

omit [LinearOrder α] in
theorem firstStep_eq (a : Grid α (n + 1) (n + 1)) (rest : Definite α n)
    : firstStep a rest
      = .step (a.entry 0 0) 1 (firstRow a) ((firstRow a).map (· / a.entry 0 0)) rest :=
  rfl

theorem factor_succ (number : Nat) (a : Grid α (n + 1) (n + 1))
    : factor number a
      = if 0 < a.entry 0 0 then (factor (number + 1) (schur a)).map (firstStep a)
        else .error number := by
  have column : (firstRow a).map (· / (1 : α)) = firstRow a := by
    simp
  have step
      : factor number a
        = if 0 < a.entry 0 0 then
            (factor (number + 1) (a.remainder ((firstRow a).map (· / (1 : α)))
                ((firstRow a).map (· / a.entry 0 0)))).map
              (.step (a.entry 0 0) 1 ((firstRow a).map (· / (1 : α)))
                ((firstRow a).map (· / a.entry 0 0)))
          else .error number :=
    rfl
  rw [step, column]
  rfl

omit [LinearOrder α] in
/-- What solves the smaller system is completed by the first row. -/
theorem solve_firstStep (a : Grid α (n + 1) (n + 1)) (rest : Definite α n)
    (b : Vector α (n + 1))
    : (firstStep a rest).solve b
      = consVec
          (b.get 0 / a.entry 0 0
            - dot ((firstRow a).map (· / a.entry 0 0))
              (rest.solve (descend (tailVec b) (b.get 0) ((firstRow a).map (· / a.entry 0 0)))))
          (rest.solve (descend (tailVec b) (b.get 0) ((firstRow a).map (· / a.entry 0 0)))) := by
  have multiples
      : descend (tailVec b) (b.get 0 / a.entry 0 0) (firstRow a)
        = descend (tailVec b) (b.get 0) ((firstRow a).map (· / a.entry 0 0)) := by
    refine vector_ext_get ?_
    rw [get_descend, get_descend]
    funext i
    simp [div_mul_eq_mul_div, mul_div_assoc]
  rw [← multiples]
  refine congrArg (consVec · _) ?_
  exact div_one _

omit [LinearOrder α] in
/-- It is what elimination goes on with, as far as the matrix is symmetric. -/
theorem schur_eq_remainder (a : Grid α (n + 1) (n + 1))
    : schur a = a.remainder ((firstRow a).map (· / a.entry 0 0)) (firstRow a) := by
  refine Grid.ext_entry fun i j => ?_
  simp only [schur, Grid.remainder, Grid.entry_ofFn, get_eq_getElem, Vector.getElem_map]
  rw [mul_div_assoc', div_mul_eq_mul_div]
  rfl

theorem pivot_pos {a : Grid α (n + 1) (n + 1)} (definite : a.IsPositiveDefinite)
    : 0 < a.entry 0 0 := by
  have form := definite.positive (Pi.single 0 1) (by simp)
  simpa [Grid.toMatrix] using form

omit [LinearOrder α] in
theorem dot_map_div (x y : Vector α n) (d : α)
    : dot (x.map (· / d)) y = dot x y / d := by
  rw [dot_eq_dotProduct, dot_eq_dotProduct, dotProduct, dotProduct, Finset.sum_div]
  refine Finset.sum_congr rfl fun j _ => ?_
  simp only [get_eq_getElem, Vector.getElem_map]
  exact div_mul_eq_mul_div ..

omit [LinearOrder α] in
/-- One step backwards: what solves the smaller system is completed to a solution of the whole. -/
theorem mulVec_of_schur {a : Grid α (n + 1) (n + 1)} (pivot : a.entry 0 0 ≠ 0)
    (symmetric : ∀ i j, a.entry i j = a.entry j i) {b : Vector α (n + 1)} {others : Vector α n}
    (rest
      : (schur a).toMatrix *ᵥ others.get
        = (descend (tailVec b) (b.get 0) ((firstRow a).map (· / a.entry 0 0))).get)
    : a.toMatrix
        *ᵥ (consVec (b.get 0 / a.entry 0 0 - dot ((firstRow a).map (· / a.entry 0 0)) others)
            others).get
      = b.get := by
  rw [dot_map_div, ← sub_div]
  rw [schur_eq_remainder] at rest
  refine Elimination.mulVec_consVec pivot (fun j => ?_) (fun i => ?_) rest
  · simp [firstRow]
  · rw [symmetric i.succ 0]
    simp [firstRow]

/-- What a step leaves is positive definite again: its form at a vector is the form of the whole
matrix at a longer one.
-/
theorem schur_isPositiveDefinite {a : Grid α (n + 1) (n + 1)}
    (definite : a.IsPositiveDefinite)
    : (schur a).IsPositiveDefinite := by
  constructor
  · intro i j
    simp only [schur, Grid.remainder, Grid.entry_ofFn, firstRow, get_eq_getElem,
      Vector.getElem_map, Vector.getElem_ofFn, Fin.eta]
    rw [definite.symmetric i.succ j.succ, mul_div_assoc', mul_div_assoc', mul_comm]
  · intro v nonzero
    let b : Vector α (n + 1) := consVec 0 (Vector.ofFn ((schur a).toMatrix *ᵥ v))
    let others : Vector α n := Vector.ofFn v
    have rest
        : (schur a).toMatrix *ᵥ others.get
          = (descend (tailVec b) (b.get 0) ((firstRow a).map (· / a.entry 0 0))).get := by
      rw [get_ofFn, get_descend]
      funext i
      simp [b]
    have whole := mulVec_of_schur (pivot_pos definite).ne' definite.symmetric rest
    generalize b.get 0 / a.entry 0 0 - _ = first at whole
    have longer : (consVec first others).get ≠ 0 := by
      intro vanishes
      apply nonzero
      funext i
      simpa [consVec, others] using congrFun vanishes i.succ
    have form := definite.positive _ longer
    rw [whole] at form
    simpa [dotProduct, Fin.sum_univ_succ, consVec, b, others] using form

/-- A positive definite matrix has a factorization, which solves exactly; by induction on its
size.
-/
theorem exists_factor (number : Nat) {a : Grid α n n} (definite : a.IsPositiveDefinite)
    : ∃ factors,
        factor number a = .ok factors
        ∧ ∀ b : Vector α n, a.toMatrix *ᵥ (factors.solve b).get = b.get := by
  induction n generalizing number with
  | zero => exact ⟨.empty, rfl, fun b => Subsingleton.elim ..⟩
  | succ n ih =>
      have pivot := pivot_pos definite
      obtain ⟨rest, made, solves⟩ := ih (number + 1) (schur_isPositiveDefinite definite)
      refine ⟨firstStep a rest, ?_, fun b => ?_⟩
      · rw [factor_succ, if_pos pivot, made]
        rfl
      · rw [solve_firstStep]
        exact mulVec_of_schur pivot.ne' definite.symmetric (solves _)

/-- Two systems of a positive definite matrix are solved together. -/
theorem exists_solvePair {a : Grid α n n} (definite : a.IsPositiveDefinite) (b c : Vector α n)
    : ∃ x y,
        solvePair a b c = .ok (x, y)
        ∧ a.toMatrix *ᵥ x.get = b.get
        ∧ a.toMatrix *ᵥ y.get = c.get := by
  obtain ⟨factors, made, solves⟩ := exists_factor 1 definite
  refine ⟨factors.solve b, factors.solve c, ?_, solves b, solves c⟩
  simp [solvePair, allFinite, made]

end Definite

end Definite

-----------------------------------------------------------------------------------------
-- The solutions of a program with independent rows
-----------------------------------------------------------------------------------------

namespace LinearProgram

/-- Variables that solve the primal equations and are a combination of the rows, and slacks of the
dual equations that are orthogonal to them.
-/
structure IsLeastNorm (p : LinearProgram α m n) (y : Blocks α m n) : Prop where
  primal : p.toMatrix *ᵥ y.x.get = p.rightSide.get
  combination : ∃ d, y.x.get = p.toMatrixᵀ *ᵥ d
  dual : p.toMatrixᵀ *ᵥ y.lam.get + y.s.get = p.cost.get
  orthogonal : p.toMatrix *ᵥ y.s.get = 0

variable {p : LinearProgram α m n}

/-- A combination of the rows is orthogonal to what the matrix takes to zero. -/
theorem dotProduct_eq_zero {d : Fin m → α} {v : Fin n → α} (vanishes : p.toMatrix *ᵥ v = 0)
    : (p.toMatrixᵀ *ᵥ d) ⬝ᵥ v = 0 := by
  rw [Matrix.mulVec_transpose, ← Matrix.dotProduct_mulVec, vanishes, dotProduct_zero]

theorem IsLeastNorm.complementary {y : Blocks α m n} (h : p.IsLeastNorm y)
    : y.x.get ⬝ᵥ y.s.get = 0 := by
  obtain ⟨d, combination⟩ := h.combination
  rw [combination]
  exact dotProduct_eq_zero h.orthogonal

/-- Without slacks of its own such a point has no gap. -/
theorem IsLeastNorm.objectives_eq {y : Blocks α m n} (h : p.IsLeastNorm y)
    : p.cost.get ⬝ᵥ y.x.get = p.rightSide.get ⬝ᵥ y.lam.get := by
  rw [← h.dual, ← h.primal, add_dotProduct, dotProduct_comm y.s.get, h.complementary, add_zero,
    Matrix.mulVec_transpose, ← Matrix.dotProduct_mulVec, dotProduct_comm]

variable [LinearOrder α] [IsStrictOrderedRing α]

/-- A combination of the rows that the matrix takes to zero is zero. -/
theorem combination_eq_zero {d : Fin m → α} (vanishes : p.toMatrix *ᵥ (p.toMatrixᵀ *ᵥ d) = 0)
    : p.toMatrixᵀ *ᵥ d = 0 :=
  dotProduct_self_eq_zero.mp (dotProduct_eq_zero vanishes)

/-- With independent rows the least-norm solutions exist, and are found. -/
theorem exists_leastNorm (independent : LinearIndependent α p.toMatrix.row)
    : ∃ y, p.leastNorm = .ok y ∧ p.IsLeastNorm y := by
  have definite := (Grid.isPositiveDefinite_iff p.matrix.toMatrix_gram).mpr independent
  obtain ⟨d, lam, solved, primal, dual⟩ :=
    Definite.exists_solvePair definite p.rightSide (Entries.mulVec p.matrix.entries p.cost)
  rw [p.matrix.toMatrix_gram, ← toMatrix, ← Matrix.mulVec_mulVec] at primal dual
  rw [Entries.get_mulVec, ← toMatrix] at dual
  have spanned : (Entries.trMulVec p.matrix.entries d).get = p.toMatrixᵀ *ᵥ d.get :=
    Entries.get_trMulVec ..
  have slack
      : (Kernel.addTrMulVec p.cost (-1) p.matrix.entries lam).get
        = p.cost.get - p.toMatrixᵀ *ᵥ lam.get := by
    rw [Kernel.addTrMulVec, get_addVec, sub_eq_add_neg, toMatrix, ← Entries.get_trMulVec]
    congr 1
    funext i
    simp
  refine ⟨{
    x := Entries.trMulVec p.matrix.entries d
    lam
    s := Kernel.addTrMulVec p.cost (-1) p.matrix.entries lam }, ?_, ?_⟩
  · rw [leastNorm, solved]
  · exact {
      primal := by rw [spanned, primal]
      combination := ⟨d.get, spanned⟩
      dual := by rw [slack, add_sub_cancel]
      orthogonal := by rw [slack, Matrix.mulVec_sub, dual, sub_self]
    }

end LinearProgram

end InteriorPoint
