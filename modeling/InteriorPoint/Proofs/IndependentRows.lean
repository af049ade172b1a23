import InteriorPoint.Proofs.LeastNorm

/-! There is a starting point if and only if the rows of the matrix are independent. What is
factored is solved, so a factored matrix of row products takes no combination of the rows to zero;
and the only thing that can be refused over a field is a pivot.
-/

namespace InteriorPoint

open scoped Matrix

variable {α : Type} [Field α] [LinearOrder α] {m n : Nat}

-----------------------------------------------------------------------------------------
-- What is factored is solved
-----------------------------------------------------------------------------------------

namespace Definite

omit [LinearOrder α] in
theorem schur_symmetric {a : Grid α (n + 1) (n + 1)}
    (symmetric : ∀ i j, a.entry i j = a.entry j i) (i j : Fin n)
    : (schur a).entry i j = (schur a).entry j i := by
  simp only [schur, Grid.remainder, Grid.entry_ofFn, firstRow, get_eq_getElem,
    Vector.getElem_map, Vector.getElem_ofFn, Fin.eta]
  rw [symmetric i.succ j.succ, mul_div_assoc', mul_div_assoc', mul_comm]

/-- A factorization has a positive pivot first, and goes on with what a step leaves. -/
theorem factor_succ_ok {a : Grid α (n + 1) (n + 1)} {number : Nat}
    {factors : Definite α (n + 1)} (made : factor number a = .ok factors)
    : 0 < a.entry 0 0
      ∧ ∃ rest,
          factor (number + 1) (schur a) = .ok rest
          ∧ factors = firstStep a rest := by
  rw [factor_succ] at made
  split at made
  · next positive =>
      cases smaller : factor (number + 1) (schur a) with
      | error order =>
          rw [smaller] at made
          cases made
      | ok rest =>
          rw [smaller] at made
          exact ⟨positive, rest, rfl, (Except.ok.inj made).symm⟩
  · cases made

/-- A symmetric matrix that is factored has its systems solved, by induction on its size. -/
theorem mulVec_solve_of_factor {number : Nat} {a : Grid α n n} {factors : Definite α n}
    (symmetric : ∀ i j, a.entry i j = a.entry j i) (made : factor number a = .ok factors)
    (b : Vector α n)
    : a.toMatrix *ᵥ (factors.solve b).get = b.get := by
  induction n generalizing number with
  | zero => exact Subsingleton.elim ..
  | succ n ih =>
      obtain ⟨pivot, rest, smaller, rfl⟩ := factor_succ_ok made
      rw [solve_firstStep]
      exact mulVec_of_schur pivot.ne' symmetric (ih (schur_symmetric symmetric) smaller _)

/-- Over a field nothing but a pivot is refused. -/
theorem solvePair_cases (a : Grid α n n) (b c : Vector α n)
    : (∃ order, factor 1 a = .error order ∧ solvePair a b c = .error (.minorNotPositive n order))
      ∨ ∃ factors, factor 1 a = .ok factors
        ∧ solvePair a b c = .ok (factors.solve b, factors.solve c) := by
  cases made : factor 1 a with
  | error order => exact .inl ⟨order, rfl, by simp [solvePair, allFinite, made]⟩
  | ok factors => exact .inr ⟨factors, rfl, by simp [solvePair, allFinite, made]⟩

end Definite

-----------------------------------------------------------------------------------------
-- Starting points
-----------------------------------------------------------------------------------------

/-- What the starting point makes of least-norm solutions: raised, and then balanced. -/
def Blocks.balanced (y : Blocks α m n) : Blocks α m n where
  x := (balance (shift y.x (raise y.x)) (shift y.s (raise y.s))).1
  lam := y.lam
  s := (balance (shift y.x (raise y.x)) (shift y.s (raise y.s))).2

namespace LinearProgram

variable {p : LinearProgram α m n}

omit [LinearOrder α] in
theorem gram_symmetric (i j : Fin m)
    : p.matrix.gram.entry i j = p.matrix.gram.entry j i := by
  have symmetric : (p.matrix.gram.toMatrix)ᵀ = p.matrix.gram.toMatrix := by
    rw [p.matrix.toMatrix_gram, Matrix.transpose_mul, Matrix.transpose_transpose]
  exact congrFun (congrFun symmetric j) i

/-- If the matrix of row products is factored, the rows are independent. -/
theorem independent_of_factor {number : Nat} {factors : Definite α m}
    (made : Definite.factor number p.matrix.gram = .ok factors)
    : LinearIndependent α p.toMatrix.row := by
  have onto : Function.Surjective p.matrix.gram.toMatrix.mulVec := by
    intro b
    have solved := Definite.mulVec_solve_of_factor gram_symmetric made (Vector.ofFn b)
    rw [get_ofFn] at solved
    exact ⟨_, solved⟩
  have injective := Matrix.mulVec_injective_iff_isUnit.mpr
    (Matrix.mulVec_surjective_iff_isUnit.mp onto)
  rw [p.matrix.toMatrix_gram] at injective
  refine Matrix.vecMul_injective_iff.mp fun u v same => injective ?_
  simp only [← Matrix.mulVec_mulVec, Matrix.mulVec_transpose]
  exact congrArg (Entries.toMatrix p.matrix.entries *ᵥ ·) same

variable [IsStrictOrderedRing α]

/-- Least-norm solutions are unique where the rows are independent. -/
theorem IsLeastNorm.unique (independent : LinearIndependent α p.toMatrix.row)
    {y z : Blocks α m n} (hy : p.IsLeastNorm y) (hz : p.IsLeastNorm z)
    : y = z := by
  have x : y.x = z.x := by
    obtain ⟨d, combination⟩ := hy.combination
    obtain ⟨e, combination'⟩ := hz.combination
    have difference : y.x.get - z.x.get = p.toMatrixᵀ *ᵥ (d - e) := by
      rw [combination, combination', Matrix.mulVec_sub]
    have vanishes : p.toMatrix *ᵥ (p.toMatrixᵀ *ᵥ (d - e)) = 0 := by
      rw [← difference, Matrix.mulVec_sub, hy.primal, hz.primal, sub_self]
    have zero := difference.trans (combination_eq_zero vanishes)
    exact vector_ext_get (sub_eq_zero.mp zero)
  have difference : z.s.get - y.s.get = p.toMatrixᵀ *ᵥ (y.lam.get - z.lam.get) := by
    rw [Matrix.mulVec_sub, sub_eq_sub_iff_add_eq_add, add_comm, hz.dual, ← hy.dual, add_comm]
  have slacks : p.toMatrixᵀ *ᵥ (y.lam.get - z.lam.get) = 0 := by
    refine combination_eq_zero ?_
    rw [← difference, Matrix.mulVec_sub, hy.orthogonal, hz.orthogonal, sub_self]
  have lam : y.lam = z.lam :=
    vector_ext_get (sub_eq_zero.mp (eq_zero_of_independent independent slacks))
  have s : y.s = z.s :=
    vector_ext_get (sub_eq_zero.mp (difference.trans slacks)).symm
  exact (Blocks.mk.injEq ..).mpr ⟨x, lam, s⟩

omit [IsStrictOrderedRing α] in
/-- There is no starting point if and only if a pivot is refused. -/
theorem startingPoint_eq_error_iff_factor {order : Nat}
    : p.startingPoint = .error (.minorNotPositive m order)
      ↔ Definite.factor 1 p.matrix.gram = .error order := by
  rcases Definite.solvePair_cases p.matrix.gram p.rightSide
    (Entries.mulVec p.matrix.entries p.cost) with ⟨other, made, refused⟩ | ⟨factors, made, solved⟩
  · simp [startingPoint, leastNorm, refused, made]
  · simp [startingPoint, leastNorm, solved, made]

/-- With independent rows the starting point is that of the least-norm solutions; with dependent
ones a pivot is refused.
-/
theorem startingPoint_cases (p : LinearProgram α m n)
    : (LinearIndependent α p.toMatrix.row
        ∧ ∃ y, p.leastNorm = .ok y ∧ p.IsLeastNorm y ∧ p.startingPoint = .ok y.balanced)
      ∨ (¬LinearIndependent α p.toMatrix.row
        ∧ ∃ order, p.startingPoint = .error (.minorNotPositive m order)) := by
  by_cases independent : LinearIndependent α p.toMatrix.row
  · obtain ⟨y, found, least⟩ := exists_leastNorm independent
    refine .inl ⟨independent, y, found, least, ?_⟩
    rw [startingPoint, found]
    rfl
  · rcases Definite.solvePair_cases p.matrix.gram p.rightSide
        (Entries.mulVec p.matrix.entries p.cost) with ⟨order, -, refused⟩ | ⟨factors, made, -⟩
    · refine .inr ⟨independent, order, ?_⟩
      rw [startingPoint, leastNorm, refused]
    · exact absurd (independent_of_factor made) independent

end LinearProgram

end InteriorPoint
