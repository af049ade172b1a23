import InteriorPoint.Proofs.Assembly
import InteriorPoint.Proofs.Denotation
import InteriorPoint.Proofs.IndependentRows
import InteriorPoint.Report.Kind

/-! Which matrices are factored, and what is named of those that are not. A step of the
factorization completes a square, so what is factored is positive definite; and it divides every
leading minor by the pivot, so the step that is named is the order of the first minor that is not
positive.
-/

namespace InteriorPoint

open scoped Matrix

variable {α : Type} [Field α] {m n : Nat}

-----------------------------------------------------------------------------------------
-- Upper triangles
-----------------------------------------------------------------------------------------

/-- The symmetric matrix with the diagonal and the entries above it of a given one. -/
def Grid.mirrored (a : Grid α n n) : Grid α n n :=
  .ofFn fun i j => if i ≤ j then a.entry i j else a.entry j i

/-- The determinant of the first rows and columns, as many as the order says. -/
def Grid.leadingMinor (a : Grid α n n) (order : Nat) (inside : order ≤ n) : α :=
  (a.toMatrix.submatrix (Fin.castLE inside) (Fin.castLE inside)).det

omit [Field α] in
theorem Grid.mirrored_symmetric (a : Grid α n n) (i j : Fin n)
    : a.mirrored.entry i j = a.mirrored.entry j i := by
  rcases lt_trichotomy i j with before | rfl | after
  · simp [mirrored, before.le, before.not_ge]
  · rfl
  · simp [mirrored, after.le, after.not_ge]

omit [Field α] in
theorem Grid.mirrored_upper (a : Grid α n n) {i j : Fin n} (above : i ≤ j)
    : a.mirrored.entry i j = a.entry i j := by
  simp [mirrored, above]

namespace Definite

theorem entry_schur (a : Grid α (n + 1) (n + 1)) (i j : Fin n)
    : (schur a).entry i j
      = a.entry i.succ j.succ - a.entry 0 i.succ * (a.entry 0 j.succ / a.entry 0 0) := by
  simp [schur, Grid.remainder, firstRow]

variable [LinearOrder α]

/-- Only the upper triangle is read, by induction on the size. -/
theorem factor_congr {a b : Grid α n n} (number : Nat)
    (upper : ∀ i j, i ≤ j → a.entry i j = b.entry i j)
    : factor number a = factor number b := by
  induction n generalizing number with
  | zero => rfl
  | succ n ih =>
      have first (j : Fin (n + 1)) : a.entry 0 j = b.entry 0 j := upper 0 j (Fin.zero_le j)
      have row : firstRow a = firstRow b := by
        refine vector_ext_get (funext fun j => ?_)
        simpa [firstRow] using first j.succ
      have rest : factor (number + 1) (schur a) = factor (number + 1) (schur b) := by
        refine ih (number + 1) fun i j above => ?_
        rw [entry_schur, entry_schur, first, first, first,
          upper _ _ (Fin.succ_le_succ_iff.mpr above)]
      have step : firstStep a = firstStep b := by
        funext smaller
        rw [firstStep_eq, firstStep_eq, first, row]
      rw [factor_succ, factor_succ, first, step, rest]

theorem factor_mirrored (number : Nat) (a : Grid α n n)
    : factor number a.mirrored = factor number a :=
  factor_congr number fun _ _ above => a.mirrored_upper above

/-- So the solutions depend on nothing else. -/
theorem solvePair_congr {a a' : Grid α n n} (upper : ∀ i j, i ≤ j → a.entry i j = a'.entry i j)
    (b c : Vector α n)
    : solvePair a b c = solvePair a' b c := by
  have finite (g : Grid α n n) : g.all allFinite = true := by simp [allFinite]
  rw [solvePair, solvePair, finite, finite, factor_congr 1 upper]

-----------------------------------------------------------------------------------------
-- What is factored is positive definite
-----------------------------------------------------------------------------------------

omit [LinearOrder α] in
/-- The form of a symmetric matrix is a square and the form of what a step leaves. -/
theorem form_eq {a : Grid α (n + 1) (n + 1)} (pivot : a.entry 0 0 ≠ 0)
    (symmetric : ∀ i j, a.entry i j = a.entry j i) (v : Fin (n + 1) → α)
    : v ⬝ᵥ (a.toMatrix *ᵥ v)
      = a.entry 0 0 * (v 0 + (firstRow a).get ⬝ᵥ Fin.tail v / a.entry 0 0) ^ 2
        + Fin.tail v ⬝ᵥ ((schur a).toMatrix *ᵥ Fin.tail v) := by
  let row := (firstRow a).get
  let w := Fin.tail v
  have row_eq (j : Fin n) : row j = a.entry 0 j.succ := by simp [row, firstRow]
  have first : (a.toMatrix *ᵥ v) 0 = a.entry 0 0 * v 0 + row ⬝ᵥ w := by
    simp only [Matrix.mulVec, dotProduct, Fin.sum_univ_succ, row_eq]
    rfl
  have others (i : Fin n)
      : (a.toMatrix *ᵥ v) i.succ
        = row i * (v 0 + row ⬝ᵥ w / a.entry 0 0) + ((schur a).toMatrix *ᵥ w) i := by
    have entry (j : Fin n)
        : a.entry i.succ j.succ * w j
          = row i * (row j * w j / a.entry 0 0) + (schur a).entry i j * w j := by
      rw [entry_schur, row_eq, row_eq]
      ring
    have rest
        : ∑ j, a.entry i.succ j.succ * w j
          = row i * (row ⬝ᵥ w / a.entry 0 0) + ((schur a).toMatrix *ᵥ w) i := by
      simp only [entry, Finset.sum_add_distrib, ← Finset.mul_sum, ← Finset.sum_div]
      rfl
    calc (a.toMatrix *ᵥ v) i.succ
        = a.entry i.succ 0 * v 0 + ∑ j, a.entry i.succ j.succ * w j := by
          simp only [Matrix.mulVec, dotProduct, Fin.sum_univ_succ]
          rfl
      _ = row i * (v 0 + row ⬝ᵥ w / a.entry 0 0) + ((schur a).toMatrix *ᵥ w) i := by
          rw [rest, symmetric i.succ 0, ← row_eq]
          ring
  calc v ⬝ᵥ (a.toMatrix *ᵥ v)
      = v 0 * (a.entry 0 0 * v 0 + row ⬝ᵥ w)
          + ∑ i, w i * (row i * (v 0 + row ⬝ᵥ w / a.entry 0 0) + ((schur a).toMatrix *ᵥ w) i) := by
        rw [dotProduct, Fin.sum_univ_succ, first]
        simp only [others]
        rfl
    _ = v 0 * (a.entry 0 0 * v 0 + row ⬝ᵥ w)
          + (row ⬝ᵥ w * (v 0 + row ⬝ᵥ w / a.entry 0 0) + w ⬝ᵥ ((schur a).toMatrix *ᵥ w)) := by
        simp only [mul_add (w _), Finset.sum_add_distrib, ← mul_assoc, ← Finset.sum_mul]
        rw [dotProduct_comm row w]
        rfl
    _ = a.entry 0 0 * (v 0 + row ⬝ᵥ w / a.entry 0 0) ^ 2 + w ⬝ᵥ ((schur a).toMatrix *ᵥ w) := by
        field_simp
        ring

variable [IsStrictOrderedRing α]

/-- So a positive pivot and what a step leaves make the whole positive definite. -/
theorem isPositiveDefinite_of_schur {a : Grid α (n + 1) (n + 1)} (pivot : 0 < a.entry 0 0)
    (symmetric : ∀ i j, a.entry i j = a.entry j i) (rest : (schur a).IsPositiveDefinite)
    : a.IsPositiveDefinite := by
  refine ⟨symmetric, fun v nonzero => ?_⟩
  rw [form_eq pivot.ne' symmetric]
  by_cases others : Fin.tail v = 0
  · have first : v 0 ≠ 0 := fun zero => nonzero (funext (Fin.cases zero (congrFun others)))
    rw [others, dotProduct_zero, zero_div, add_zero, zero_dotProduct, add_zero]
    positivity
  · exact add_pos_of_nonneg_of_pos (mul_nonneg pivot.le (sq_nonneg _)) (rest.positive _ others)

/-- A symmetric matrix is factored if and only if it is positive definite. -/
theorem exists_factor_iff {a : Grid α n n} (number : Nat)
    (symmetric : ∀ i j, a.entry i j = a.entry j i)
    : (∃ factors, factor number a = .ok factors) ↔ a.IsPositiveDefinite := by
  constructor
  · rintro ⟨factors, made⟩
    induction n generalizing number with
    | zero => exact ⟨symmetric, fun v nonzero => absurd (Subsingleton.elim ..) nonzero⟩
    | succ n ih =>
        obtain ⟨pivot, rest, smaller, -⟩ := factor_succ_ok made
        exact isPositiveDefinite_of_schur pivot symmetric
          (ih (number + 1) (schur_symmetric symmetric) rest smaller)
  · intro definite
    obtain ⟨factors, made, -⟩ := exists_factor number definite
    exact ⟨factors, made⟩

-----------------------------------------------------------------------------------------
-- The minor that is named
-----------------------------------------------------------------------------------------

omit [LinearOrder α] [IsStrictOrderedRing α] in
/-- Taking multiples of the first row from the others leaves the pivot times the determinant of what
a step goes on with.
-/
theorem det_eq_pivot_mul (a : Matrix (Fin (n + 1)) (Fin (n + 1)) α) (pivot : a 0 0 ≠ 0)
    : a.det
      = a 0 0
        * (Matrix.of fun i j : Fin n => a i.succ j.succ - a i.succ 0 / a 0 0 * a 0 j.succ).det := by
  let multiples : Fin (n + 1) → α := Fin.cases 0 fun i => a i.succ 0 / a 0 0
  let b : Matrix (Fin (n + 1)) (Fin (n + 1)) α := .of fun i j => a i j - multiples i * a 0 j
  have same : a.det = b.det := by
    refine Matrix.det_eq_of_forall_row_eq_smul_add_const multiples 0 rfl fun i j => ?_
    simp [b, multiples]
  have below (i : Fin n) : b i.succ 0 = 0 := by
    simp only [b, multiples, Matrix.of_apply, Fin.cases_succ]
    field_simp
    ring
  rw [same, Matrix.det_succ_column_zero, Fin.sum_univ_succ]
  have others
      : ∑ i : Fin n,
          (-1) ^ (i.succ : ℕ) * b i.succ 0 * (b.submatrix i.succ.succAbove Fin.succ).det = 0 :=
    Finset.sum_eq_zero fun i _ => by rw [below, mul_zero, zero_mul]
  rw [others, add_zero]
  simp only [Fin.val_zero, pow_zero, one_mul, Fin.succAbove_zero]
  congr 1
  simp [b, multiples]

omit [LinearOrder α] [IsStrictOrderedRing α] in
theorem leadingMinor_zero (a : Grid α n n)
    : a.leadingMinor 0 n.zero_le = 1 :=
  Matrix.det_fin_zero

omit [LinearOrder α] [IsStrictOrderedRing α] in
theorem leadingMinor_one (a : Grid α (n + 1) (n + 1))
    : a.leadingMinor 1 (by omega) = a.entry 0 0 :=
  Matrix.det_fin_one _

omit [LinearOrder α] [IsStrictOrderedRing α] in
/-- A step divides every leading minor by the pivot. -/
theorem leadingMinor_succ {a : Grid α (n + 1) (n + 1)} (pivot : a.entry 0 0 ≠ 0)
    (symmetric : ∀ i j, a.entry i j = a.entry j i) {order : Nat} (inside : order ≤ n)
    : a.leadingMinor (order + 1) (by omega)
      = a.entry 0 0 * (schur a).leadingMinor order inside := by
  let corner := a.toMatrix.submatrix (Fin.castLE (Nat.succ_le_succ inside))
    (Fin.castLE (Nat.succ_le_succ inside))
  refine (det_eq_pivot_mul corner pivot).trans ?_
  refine congrArg (a.entry 0 0 * ·) (congrArg Matrix.det ?_)
  ext i j
  have entry := entry_schur a (Fin.castLE inside i) (Fin.castLE inside j)
  rw [symmetric 0, mul_div_assoc', mul_div_right_comm] at entry
  exact entry.symm

/-- The step that is named has a minor that is not positive, and all before it are positive. Steps
are counted from a number on; by induction on the size.
-/
theorem minors_of_factor_error {number order : Nat} {a : Grid α n n}
    (symmetric : ∀ i j, a.entry i j = a.entry j i) (refused : factor number a = .error order)
    : ∃ (k : Nat) (inside : k + 1 ≤ n),
        order = number + k
        ∧ a.leadingMinor (k + 1) inside ≤ 0
        ∧ ∀ j (before : j ≤ k), 0 < a.leadingMinor j (by omega) := by
  induction n generalizing number with
  | zero => cases refused
  | succ n ih =>
      rw [factor_succ] at refused
      split at refused
      · next pivot =>
          obtain ⟨k, inside, rfl, minor, earlier⟩ :=
            ih (schur_symmetric symmetric) (map_error refused)
          refine ⟨k + 1, by omega, by omega, ?_, fun j before => ?_⟩
          · rw [leadingMinor_succ pivot.ne' symmetric inside]
            exact mul_nonpos_of_nonneg_of_nonpos pivot.le minor
          · cases j with
            | zero =>
                rw [leadingMinor_zero]
                exact one_pos
            | succ j =>
                rw [leadingMinor_succ pivot.ne' symmetric (by omega)]
                exact mul_pos pivot (earlier j (by omega))
      · next pivot =>
          obtain rfl := Except.error.inj refused
          refine ⟨0, by omega, rfl, ?_, fun j before => ?_⟩
          · rw [leadingMinor_one]
            exact not_lt.mp pivot
          · obtain rfl : j = 0 := by omega
            rw [leadingMinor_zero]
            exact one_pos

-----------------------------------------------------------------------------------------
-- Other splits of the pivots
-----------------------------------------------------------------------------------------

section Split

variable {lower upper : α → α}

/-- Two factors of every positive number whose product it is. -/
def IsProductSplit (lower upper : α → α) : Prop :=
  ∀ x, 0 < x → lower x * upper x = x

/-- A factorization that splits its pivots in some way. -/
def factorBy (lower upper : α → α) (number : Nat) (a : Grid α n n) : Except Nat (Definite α n) :=
  @factor α _ _ _ _ _ _ ⟨lower, upper⟩ n number a

/-- A step of it, with what that leaves. -/
def splitStep (lower upper : α → α) (a : Grid α (n + 1) (n + 1)) (rest : Definite α n)
    : Definite α (n + 1) :=
  let corner : Fin (n + 1) := ⟨0, n.succ_pos⟩
  let pivot := a.entry corner corner
  .step (lower pivot) (upper pivot) ((firstRow a).map (· / upper pivot))
    ((firstRow a).map (· / lower pivot)) rest

omit [LinearOrder α] [IsStrictOrderedRing α] in
theorem splitStep_eq (a : Grid α (n + 1) (n + 1)) (rest : Definite α n)
    : splitStep lower upper a rest
      = .step (lower (a.entry 0 0)) (upper (a.entry 0 0))
          ((firstRow a).map (· / upper (a.entry 0 0)))
          ((firstRow a).map (· / lower (a.entry 0 0))) rest :=
  rfl

/-- The same factors with all of each pivot in the lower triangle. -/
def unsplit : {n : Nat} → Definite α n → Definite α n
  | 0, factors => factors
  | _ + 1, step lower upper column row rest =>
      .step (lower * upper) 1 (column.map (· * upper)) (row.map (· / upper)) rest.unsplit

omit [IsStrictOrderedRing α] in
/-- However the pivots are split, a step leaves the same. -/
theorem factorBy_succ (product : IsProductSplit lower upper) (number : Nat)
    (a : Grid α (n + 1) (n + 1))
    : factorBy lower upper number a
      = if 0 < a.entry 0 0 then
          (factorBy lower upper (number + 1) (schur a)).map (splitStep lower upper a)
        else .error number := by
  have step
      : factorBy lower upper number a
        = if 0 < a.entry 0 0 then
            (factorBy lower upper (number + 1)
              (a.remainder ((firstRow a).map (· / upper (a.entry 0 0)))
                ((firstRow a).map (· / lower (a.entry 0 0))))).map (splitStep lower upper a)
          else .error number :=
    rfl
  rw [step]
  split
  · next pivot =>
      have remainder
          : a.remainder ((firstRow a).map (· / upper (a.entry 0 0)))
              ((firstRow a).map (· / lower (a.entry 0 0)))
            = schur a := by
        refine Grid.ext_entry fun i j => ?_
        simp only [schur, Grid.remainder, Grid.entry_ofFn, get_eq_getElem, Vector.getElem_map]
        rw [div_mul_div_comm, mul_comm (upper _), product _ pivot, mul_div_assoc]
        rfl
      rw [remainder]
  · rfl

omit [IsStrictOrderedRing α] in
/-- A factor of a positive number is not zero. -/
theorem IsProductSplit.ne_zero (product : IsProductSplit lower upper) {x : α} (positive : 0 < x)
    : lower x ≠ 0 ∧ upper x ≠ 0 := by
  have same := product x positive
  exact ⟨left_ne_zero_of_mul (same.trans_ne positive.ne'),
    right_ne_zero_of_mul (same.trans_ne positive.ne')⟩

omit [IsStrictOrderedRing α] in
theorem unsplit_splitStep (product : IsProductSplit lower upper)
    {a : Grid α (n + 1) (n + 1)} (pivot : 0 < a.entry 0 0) (rest : Definite α n)
    : unsplit (splitStep lower upper a rest) = firstStep a rest.unsplit := by
  obtain ⟨-, nonzero⟩ := product.ne_zero pivot
  have column
      : ((firstRow a).map (· / upper (a.entry 0 0))).map (· * upper (a.entry 0 0))
        = firstRow a := by
    refine vector_ext_get (funext fun j => ?_)
    simp [div_mul_cancel₀ _ nonzero]
  have row
      : ((firstRow a).map (· / lower (a.entry 0 0))).map (· / upper (a.entry 0 0))
        = (firstRow a).map (· / a.entry 0 0) := by
    refine vector_ext_get (funext fun j => ?_)
    simp [div_div, product _ pivot]
  rw [splitStep_eq, unsplit, column, row, product _ pivot]
  rfl

omit [IsStrictOrderedRing α] in
/-- The factors of any split are those of the pivots themselves, by induction on the size. -/
theorem factor_eq_unsplit (product : IsProductSplit lower upper) (number : Nat) (a : Grid α n n)
    : factor number a = (factorBy lower upper number a).map unsplit := by
  induction n generalizing number with
  | zero => rfl
  | succ n ih =>
      rw [factor_succ, factorBy_succ product, ih]
      split
      · next pivot =>
          cases factorBy lower upper (number + 1) (schur a) with
          | error order => rfl
          | ok rest => exact congrArg Except.ok (unsplit_splitStep product pivot rest).symm
      · rfl

omit [IsStrictOrderedRing α] in
/-- They solve the same, since a factor that the lower triangle lacks is divided by later. -/
theorem solve_unsplit (product : IsProductSplit lower upper) {number : Nat} {a : Grid α n n}
    {factors : Definite α n} (made : factorBy lower upper number a = .ok factors)
    (b : Vector α n)
    : factors.unsplit.solve b = factors.solve b := by
  induction n generalizing number with
  | zero =>
      cases factors
      rfl
  | succ n ih =>
      rw [factorBy_succ product] at made
      split at made
      · next pivot =>
          obtain ⟨rest, smaller, rfl⟩ := map_ok made
          rw [unsplit_splitStep product pivot, solve_firstStep, ih smaller, splitStep_eq]
          have multiples
              : descend (tailVec b) (b.get 0 / lower (a.entry 0 0))
                  ((firstRow a).map (· / upper (a.entry 0 0)))
                = descend (tailVec b) (b.get 0) ((firstRow a).map (· / a.entry 0 0)) := by
            refine vector_ext_get ?_
            rw [get_descend, get_descend]
            funext i
            simp [div_mul_div_comm, product _ pivot, mul_div_assoc]
          rw [← multiples]
          refine congrArg (consVec · _) ?_
          rw [dot_map_div, dot_map_div, ← sub_div, ← sub_div, div_div, product _ pivot]
          rfl
      · cases made

omit [IsStrictOrderedRing α] in
/-- So two systems are solved alike, or refused alike, however the pivots are split. -/
theorem solvePair_split (product : IsProductSplit lower upper) (a : Grid α n n)
    (b c : Vector α n)
    : @solvePair α _ _ _ _ _ _ _ _ _ ⟨lower, upper⟩ n a b c = solvePair a b c := by
  have same := factor_eq_unsplit product 1 a
  have finite : a.all allFinite = true := by simp [allFinite]
  simp only [solvePair, finite, same, factorBy]
  cases made : @factor α _ _ _ _ _ _ ⟨lower, upper⟩ n 1 a with
  | error order => rfl
  | ok factors => simp only [Except.map, solve_unsplit product made, if_true]

end Split

-----------------------------------------------------------------------------------------
-- Square roots of the pivots
-----------------------------------------------------------------------------------------

section Roots

/-- The Cholesky factor of a matrix: an upper triangle with a positive diagonal whose columns have
the entries of the matrix as inner products.
-/
structure IsCholeskyFactor (a : Grid ℝ n n) (u : Matrix (Fin n) (Fin n) ℝ) : Prop where
  triangular : ∀ i j, j < i → u i j = 0
  diagonal : ∀ i, 0 < u i i
  product : uᵀ * u = a.toMatrix

/-- The upper triangle of a factorization. -/
def triangle : {n : Nat} → Definite ℝ n → Matrix (Fin n) (Fin n) ℝ
  | 0, _ => 0
  | _ + 1, step _ upper _ row rest =>
      .of (Fin.cases (Fin.cases upper row.get) fun i => Fin.cases 0 fun j => rest.triangle i j)

theorem isProductSplit_sqrt
    : IsProductSplit Real.sqrt Real.sqrt :=
  fun _ positive => Real.mul_self_sqrt positive.le

/-- The row of a step adds to the products of the later rows what the step took from the matrix. -/
theorem triangle_step_product {a : Grid ℝ (n + 1) (n + 1)} {rest : Definite ℝ n}
    (pivot : 0 < a.entry 0 0) (symmetric : ∀ i j, a.entry i j = a.entry j i)
    (smaller : rest.triangleᵀ * rest.triangle = (schur a).toMatrix)
    : (triangle (splitStep Real.sqrt Real.sqrt a rest))ᵀ
        * triangle (splitStep Real.sqrt Real.sqrt a rest)
      = a.toMatrix := by
  let top (j : Fin n) : ℝ := a.entry 0 j.succ / Real.sqrt (a.entry 0 0)
  have square := Real.mul_self_sqrt pivot.le
  have root := (Real.sqrt_pos.mpr pivot).ne'
  have first (j : Fin n) : Real.sqrt (a.entry 0 0) * top j = a.entry 0 j.succ :=
    mul_div_cancel₀ _ root
  have products (i j : Fin n)
      : top i * top j = a.entry 0 i.succ * (a.entry 0 j.succ / a.entry 0 0) := by
    rw [div_mul_div_comm, square, mul_div_assoc]
  have row (j : Fin n) : triangle (splitStep Real.sqrt Real.sqrt a rest) 0 j.succ = top j := by
    simp [triangle, splitStep_eq, top, firstRow]
  have later (i j : Fin n)
      : ∑ k, rest.triangle k i * rest.triangle k j = (schur a).entry i j :=
    congrFun (congrFun smaller i) j
  ext i j
  rw [Matrix.mul_apply, Fin.sum_univ_succ]
  simp only [Matrix.transpose_apply]
  cases i using Fin.cases with
  | zero =>
      cases j using Fin.cases with
      | zero => simpa [triangle, splitStep_eq, Grid.toMatrix] using square
      | succ j =>
          rw [row]
          simpa [triangle, splitStep_eq, Grid.toMatrix] using first j
  | succ i =>
      cases j using Fin.cases with
      | zero =>
          rw [row, mul_comm]
          simpa [triangle, splitStep_eq, Grid.toMatrix, symmetric i.succ 0] using first i
      | succ j =>
          rw [row, row, products]
          simp only [triangle, splitStep_eq, Matrix.of_apply, Fin.cases_succ]
          rw [later, entry_schur, add_sub_cancel]
          rfl

/-- With square roots of the pivots the upper triangle is the Cholesky factor, and what is solved
are its two triangular systems; by induction on the size.
-/
theorem triangle_isCholeskyFactor {number : Nat} {a : Grid ℝ n n} {factors : Definite ℝ n}
    (symmetric : ∀ i j, a.entry i j = a.entry j i)
    (made : factorBy Real.sqrt Real.sqrt number a = .ok factors)
    : IsCholeskyFactor a factors.triangle
      ∧ ∀ b : Vector ℝ n,
          factors.triangleᵀ *ᵥ (factors.triangle *ᵥ (factors.solve b).get) = b.get := by
  have isFactor : IsCholeskyFactor a factors.triangle := by
    induction n generalizing number with
    | zero => exact ⟨fun i => i.elim0, fun i => i.elim0, Subsingleton.elim ..⟩
    | succ n ih =>
        rw [factorBy_succ isProductSplit_sqrt] at made
        split at made
        · next pivot =>
            obtain ⟨rest, smaller, rfl⟩ := map_ok made
            have below := ih (schur_symmetric symmetric) smaller
            refine ⟨?_, ?_, triangle_step_product pivot symmetric below.product⟩
            · refine Fin.cases (fun j before => absurd before j.not_lt_zero) fun i => ?_
              refine Fin.cases (fun _ => rfl) fun j before => ?_
              exact below.triangular i j (Fin.succ_lt_succ_iff.mp before)
            · exact Fin.cases (Real.sqrt_pos.mpr pivot) below.diagonal
        · cases made
  refine ⟨isFactor, fun b => ?_⟩
  have plain : factor number a = .ok factors.unsplit := by
    rw [factor_eq_unsplit isProductSplit_sqrt, made]
    rfl
  rw [Matrix.mulVec_mulVec, isFactor.product, ← solve_unsplit isProductSplit_sqrt made]
  exact mulVec_solve_of_factor symmetric plain b

end Roots

-----------------------------------------------------------------------------------------
-- Systems with two right sides
-----------------------------------------------------------------------------------------

omit [IsStrictOrderedRing α] in
/-- Systems that are given as arrays are solved like those of their grid. -/
theorem solveTensors_ofGrid (a : Grid α n n) (b c : Vector α n)
    : solveTensors (.ofGrid a) (.line b.toList) (.line c.toList)
      = (solvePair a b c).map fun pair => (pair.1.toList, pair.2.toList) := by
  have shapes
      : (Tensor.ofGrid a).shape = [n, n]
        ∧ (Tensor.line b.toList).shape = [n]
        ∧ (Tensor.line c.toList).shape = [n] := by
    simp [Tensor.ofGrid, Tensor.line]
  refine (if_pos shapes).trans ?_
  rw [Tensor.ofFn_values_ofGrid, Tensor.toVector_line, Tensor.toVector_line]

omit [IsStrictOrderedRing α] in
/-- A positive definite matrix takes no two vectors to the same one. -/
theorem mulVec_eq_iff {a : Grid α n n} (definite : a.IsPositiveDefinite) {x b : Fin n → α}
    (solves : a.toMatrix *ᵥ x = b) (z : Fin n → α)
    : a.toMatrix *ᵥ z = b ↔ z = x := by
  constructor
  · intro same
    by_contra apart
    have form := definite.positive (z - x) (sub_ne_zero.mpr apart)
    rw [Matrix.mulVec_sub, same, solves, sub_self, dotProduct_zero] at form
    exact lt_irrefl 0 form
  · rintro rfl
    exact solves

/-- What solving two systems of the symmetric matrix with a given upper triangle comes to. It is
refused if and only if the matrix is not positive definite, and then the order of its first leading
minor that is not positive is named; otherwise the answers are the only solutions. The entries below
the diagonal play no part, and arrays are treated like the grids and vectors that they spell out.
-/
structure SolvesSymmetric (a : Grid α n n) (b c : Vector α n) : Prop where
  refused_iff
    : (∃ fault, solvePair a b c = .error fault ∧ fault.kind = .factorization)
      ↔ ¬a.mirrored.IsPositiveDefinite
  fault_eq
    : ∀ fault,
        solvePair a b c = .error fault
        → ∃ order,
            fault = .minorNotPositive n order
            ∧ IsLeast {k | ∃ inside : k ≤ n, a.mirrored.leadingMinor k inside ≤ 0} order
  solved
    : a.mirrored.IsPositiveDefinite
      → ∃ x y,
          solvePair a b c = .ok (x, y)
          ∧ (∀ z, a.mirrored.toMatrix *ᵥ z = b.get ↔ z = x.get)
          ∧ ∀ z, a.mirrored.toMatrix *ᵥ z = c.get ↔ z = y.get
  solvePair_congr
    : ∀ a' : Grid α n n,
        (∀ i j, i ≤ j → a'.entry i j = a.entry i j) → solvePair a' b c = solvePair a b c
  solveTensors_eq
    : solveTensors (.ofGrid a) (.line b.toList) (.line c.toList)
      = (solvePair a b c).map fun pair => (pair.1.toList, pair.2.toList)

/-- Every pair of systems is solved so, or refused for its matrix. -/
theorem solvesSymmetric (a : Grid α n n) (b c : Vector α n)
    : SolvesSymmetric a b c := by
  have factored := exists_factor_iff 1 a.mirrored_symmetric
  rw [factor_mirrored] at factored
  constructor
  case refused_iff =>
    rw [← factored]
    rcases solvePair_cases a b c with ⟨order, made, refused⟩ | ⟨factors, made, solved⟩
    · simp [made, refused, Fault.kind]
    · simp [made, solved]
  case fault_eq =>
    intro fault refused'
    rcases solvePair_cases a b c with ⟨order, made, refused⟩ | ⟨factors, -, solved⟩
    · obtain rfl := Except.error.inj (refused.symm.trans refused')
      rw [← factor_mirrored] at made
      obtain ⟨k, inside, rfl, minor, earlier⟩ :=
        minors_of_factor_error a.mirrored_symmetric made
      rw [add_comm 1 k]
      refine ⟨k + 1, rfl, ⟨inside, minor⟩, ?_⟩
      rintro j ⟨inside', nonpositive⟩
      by_contra before
      exact (earlier j (by omega)).not_ge nonpositive
    · cases solved.symm.trans refused'
  case solved =>
    intro definite
    obtain ⟨x, y, solved, first, second⟩ := exists_solvePair definite b c
    rw [solvePair_congr fun _ _ above => a.mirrored_upper above] at solved
    exact ⟨x, y, solved, mulVec_eq_iff definite first, mulVec_eq_iff definite second⟩
  case solvePair_congr => exact fun a' upper => solvePair_congr upper b c
  case solveTensors_eq => exact solveTensors_ofGrid a b c

/-- A matrix that is not symmetric is solved as the one with its upper triangle; and another one,
whose second minor is zero, is refused.
-/
theorem solvesSymmetric_sample
    : (∃ (a : Grid ℚ 2 2) (b c : Vector ℚ 2),
          a = #v[#v[2, 1], #v[9, 2]]
          ∧ SolvesSymmetric a b c
          ∧ solvePair a b c = .ok (#v[1, 1], #v[1, -1]))
      ∧ ∃ (a : Grid ℚ 2 2) (b c : Vector ℚ 2),
          a = #v[#v[1, 2], #v[2, 4]]
          ∧ SolvesSymmetric a b c
          ∧ solvePair a b c = .error (.minorNotPositive 2 2)
          ∧ ¬a.mirrored.IsPositiveDefinite := by
  have refused
      : solvePair (#v[#v[1, 2], #v[2, 4]] : Grid ℚ 2 2) #v[1, 1] #v[0, 1]
        = .error (.minorNotPositive 2 2) := by
    decide +kernel
  have system := solvesSymmetric (#v[#v[1, 2], #v[2, 4]] : Grid ℚ 2 2) #v[1, 1] #v[0, 1]
  exact ⟨⟨_, #v[3, 3], #v[1, -1], rfl, solvesSymmetric _ _ _, by decide +kernel⟩,
    _, _, _, rfl, system, refused, system.refused_iff.mp ⟨_, refused, rfl⟩⟩

end Definite

end InteriorPoint
