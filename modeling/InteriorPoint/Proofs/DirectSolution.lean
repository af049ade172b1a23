import InteriorPoint.Proofs.Nonsingular
import InteriorPoint.Proofs.Sessions

/-! Both direct engines solve every system and its transpose, and fail on the singular matrices
alone. The factors are those of one elimination, which solves transposed systems as well, with the
exchange of each step on the other side.
-/

namespace InteriorPoint

open scoped Matrix

-----------------------------------------------------------------------------------------
-- Elimination, transposed
-----------------------------------------------------------------------------------------

namespace Elimination

variable {α : Type} [Field α] {n : Nat}

/-- A transposed system is solved by an exchange in the solution of the system whose rows are
exchanged.
-/
theorem transpose_mulVec_swapFirst {k : Fin (n + 1)} {a : Grid α (n + 1) (n + 1)}
    {b x : Vector α (n + 1)}
    (exchanged : (Grid.toMatrix (swapFirst k a))ᵀ *ᵥ x.get = b.get)
    : a.toMatrixᵀ *ᵥ (swapFirst k x).get = b.get := by
  rw [← exchanged, toMatrix_swapFirst, get_swapFirst]
  funext j
  simp only [Matrix.mulVec, dotProduct, Matrix.transpose_apply, Matrix.submatrix_apply, id_eq,
    Function.comp_apply]
  rw [← Equiv.sum_comp (Equiv.swap 0 k)]
  simp

/-- One step of an elimination, transposed and backwards: where the first equation gives a first
value and the others solve what is left of the other equations, the whole system is solved once
the multiples of the other unknowns are taken from the first.
-/
theorem transpose_mulVec_consVec {a : Grid α (n + 1) (n + 1)} (pivot : a.entry 0 0 ≠ 0)
    {row multipliers others : Vector α n} {b : Vector α (n + 1)}
    (row_get : ∀ j, row.get j = a.entry 0 j.succ)
    (multiplier : ∀ i, multipliers.get i = a.entry i.succ 0 / a.entry 0 0)
    (rest
      : (a.remainder multipliers row).toMatrixᵀ *ᵥ others.get
        = (descend (tailVec b) (b.get 0 / a.entry 0 0) row).get)
    : a.toMatrixᵀ *ᵥ (consVec (b.get 0 / a.entry 0 0 - dot multipliers others) others).get
      = b.get := by
  have product : dot multipliers others = ∑ i, multipliers.get i * others.get i :=
    dot_eq_dotProduct ..
  funext j
  simp only [Matrix.mulVec, dotProduct, Fin.sum_univ_succ, consVec, get_ofFn, Fin.cases_zero,
    Fin.cases_succ, Grid.toMatrix, Matrix.transpose_apply, Matrix.of_apply, product]
  cases j using Fin.cases with
  | zero =>
      have column
          : ∑ i, a.entry i.succ 0 * others.get i
            = a.entry 0 0 * ∑ i, multipliers.get i * others.get i := by
        rw [Finset.mul_sum]
        refine Finset.sum_congr rfl fun i _ => ?_
        rw [multiplier, ← mul_assoc, mul_div_cancel₀ _ pivot]
      rw [column, mul_sub, mul_div_cancel₀ _ pivot]
      exact sub_add_cancel ..
  | succ j =>
      -- What is left of the equation is the equation less its part in the first unknown.
      have left
          : ∑ i, (a.remainder multipliers row).entry i j * others.get i
            = ∑ i, a.entry i.succ j.succ * others.get i
              - a.entry 0 j.succ * ∑ i, multipliers.get i * others.get i := by
        rw [Finset.mul_sum, ← Finset.sum_sub_distrib]
        refine Finset.sum_congr rfl fun i _ => ?_
        rw [Grid.remainder, Grid.entry_ofFn, row_get]
        ring
      have solved
          : ∑ i, (a.remainder multipliers row).entry i j * others.get i
            = b.get j.succ - b.get 0 / a.entry 0 0 * row.get j := by
        have below := congrFun rest j
        rw [get_descend] at below
        simpa [Matrix.mulVec, dotProduct, Grid.toMatrix] using below
      rw [left, row_get, sub_eq_iff_eq_add] at solved
      rw [solved]
      ring

/-- The factors solve the transposed system exactly as well, by induction on the size. -/
theorem transpose_mulVec_solveTransposed {choose : {k : Nat} → Vector α k → Option (Fin k)}
    (sound : ∀ {k : Nat} {column : Vector α k} {i : Fin k},
      choose column = some i → column.get i ≠ 0)
    {number : Nat} {a : Grid α n n} {factors : Elimination α n}
    (made : factor choose number a = .ok factors) (b : Vector α n)
    : a.toMatrixᵀ *ᵥ (factors.solveTransposed b).get = b.get := by
  induction n generalizing number with
  | zero => exact Subsingleton.elim ..
  | succ n ih =>
      obtain ⟨chosen, row, multipliers, rest, picked, row_get, multiplier, smaller, rfl⟩ :=
        factor_ok made
      have pivot : Grid.entry (swapFirst chosen a) 0 0 ≠ 0 := by
        have found := sound picked
        rw [get_ofFn] at found
        rwa [entry_swapFirst_zero]
      refine transpose_mulVec_swapFirst ?_
      exact transpose_mulVec_consVec pivot row_get multiplier (ih smaller _)

/-- A matrix that has factors is nonsingular, since they solve every system. -/
theorem det_ne_zero_of_factor {choose : {k : Nat} → Vector α k → Option (Fin k)}
    (sound : ∀ {k : Nat} {column : Vector α k} {i : Fin k},
      choose column = some i → column.get i ≠ 0)
    {number : Nat} {a : Grid α n n} {factors : Elimination α n}
    (made : factor choose number a = .ok factors)
    : a.toMatrix.det ≠ 0 := by
  have surjective : Function.Surjective a.toMatrix.mulVec := by
    intro b
    refine ⟨(factors.solve (Vector.ofFn b)).get, ?_⟩
    rw [mulVec_solve sound made, get_ofFn]
  have unit := Matrix.mulVec_surjective_iff_isUnit.mp surjective
  exact ((Matrix.isUnit_iff_isUnit_det _).mp unit).ne_zero

end Elimination

/-- A nonsingular system has no second solution. -/
theorem mulVec_eq_iff {α : Type} [Field α] {n : Nat} {a : Matrix (Fin n) (Fin n) α}
    (nonsingular : a.det ≠ 0) {b x : Fin n → α} (solved : a *ᵥ x = b) (v : Fin n → α)
    : a *ᵥ v = b ↔ v = x := by
  constructor
  · intro other
    refine sub_eq_zero.mp (Matrix.eq_zero_of_mulVec_eq_zero nonsingular ?_)
    rw [Matrix.mulVec_sub, other, solved, sub_self]
  · rintro rfl
    exact solved

-----------------------------------------------------------------------------------------
-- The two engines
-----------------------------------------------------------------------------------------

namespace Direct

variable {α : Type} [Field α] [LinearOrder α] [IsStrictOrderedRing α] {n : Nat}

/-- Both engines fail on the singular matrices and on no other ones. -/
theorem factorize_eq_error_iff (kind : Direct) (t : Triplet α n n)
    : (∃ cause, ((engine kind).factorize t ()).1 = .error cause)
      ↔ (Entries.toMatrix t.entries).det = 0 := by
  constructor
  · rintro ⟨cause, fails⟩
    by_contra nonsingular
    obtain ⟨factors, after, made⟩ := kind.engine_isReliable.factorizes t () nonsingular
    rw [made] at fails
    cases fails
  · intro singular
    cases made : ((engine kind).factorize t ()).1 with
    | error cause => exact ⟨cause, rfl⟩
    | ok factors =>
        have nonsingular := Elimination.det_ne_zero_of_factor
          Elimination.get_ne_zero_of_pivotRow? (factor_of_factorize made)
        rw [t.toMatrix_toGrid] at nonsingular
        exact absurd singular nonsingular

/-- Of a nonsingular matrix both engines give the one solution of every system, transposed or not.
-/
theorem exists_answer (kind : Direct) {t : Triplet α n n}
    (nonsingular : (Entries.toMatrix t.entries).det ≠ 0) (transposed : Bool) (rhs : Vector α n)
    : ∃ x : Vector α n,
        (engine kind).answer ⟨n, t⟩ transposed rhs = .ok x
        ∧ ∀ v,
            (if transposed then (Entries.toMatrix t.entries)ᵀ else Entries.toMatrix t.entries) *ᵥ v
              = rhs.get
            ↔ v = x.get := by
  obtain ⟨factors, after, made⟩ := kind.engine_isReliable.factorizes t () nonsingular
  have made : ((engine kind).factorize t ()).1 = .ok factors := congrArg Prod.fst made
  have found := factor_of_factorize made
  have answered (x : Vector α n)
      (solved : ((engine kind).solve factors transposed rhs ()).1 = .ok x)
      : (engine kind).answer ⟨n, t⟩ transposed rhs = .ok x := by
    simp [Engine.answer, made, solved, allFinite]
  cases transposed with
  | false =>
      refine ⟨Elimination.solve factors rhs, answered _ rfl, mulVec_eq_iff nonsingular ?_⟩
      rw [← t.toMatrix_toGrid]
      exact Elimination.mulVec_solve Elimination.get_ne_zero_of_pivotRow? found rhs
  | true =>
      rw [← Matrix.det_transpose] at nonsingular
      refine ⟨Elimination.solveTransposed factors rhs, answered _ rfl,
        mulVec_eq_iff nonsingular ?_⟩
      rw [← t.toMatrix_toGrid]
      exact Elimination.transpose_mulVec_solveTransposed Elimination.get_ne_zero_of_pivotRow?
        found rhs

end Direct

end InteriorPoint
