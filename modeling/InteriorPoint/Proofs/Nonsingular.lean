import InteriorPoint.Proofs.ExactElimination

/-! Elimination gets through every nonsingular matrix. A column without a pivot is zero, and what a
step leaves is nonsingular again, so over an ordered field both engines factor and then solve.
-/

namespace InteriorPoint

open scoped Matrix

section Kernel

variable {α : Type} [Field α] {m n : Nat}

/-- A matrix is nonsingular if it takes no vector but zero to zero. -/
theorem det_ne_zero_of_kernel {a : Matrix (Fin n) (Fin n) α} (kernel : ∀ v, a *ᵥ v = 0 → v = 0)
    : a.det ≠ 0 := by
  intro singular
  obtain ⟨v, nonzero, vanishes⟩ := Matrix.exists_mulVec_eq_zero_iff.mpr singular
  exact nonzero (kernel v vanishes)

/-- Independent rows combine to zero only with multipliers that are zero. -/
theorem eq_zero_of_independent {a : Matrix (Fin m) (Fin n) α}
    (independent : LinearIndependent α a.row) {lam : Fin m → α} (vanishes : aᵀ *ᵥ lam = 0)
    : lam = 0 := by
  rw [Matrix.mulVec_transpose] at vanishes
  exact Matrix.vecMul_injective_iff.mpr independent (by simpa using vanishes)

end Kernel

namespace Elimination

variable {α : Type} [Field α] {n : Nat}

theorem det_swapFirst_ne_zero {k : Fin (n + 1)} {a : Grid α (n + 1) (n + 1)}
    (nonsingular : a.toMatrix.det ≠ 0)
    : (Grid.toMatrix (swapFirst k a)).det ≠ 0 := by
  rw [toMatrix_swapFirst, Matrix.det_permute]
  refine mul_ne_zero ?_ nonsingular
  rcases Int.units_eq_one_or (Equiv.Perm.sign (Equiv.swap 0 k)) with sign | sign
  · simp [sign]
  · simp [sign]

/-- What one step leaves of a nonsingular matrix is nonsingular: a vector that it takes to zero
extends to one that the whole matrix takes to zero.
-/
theorem det_remainder_ne_zero {a : Grid α (n + 1) (n + 1)} (pivot : a.entry 0 0 ≠ 0)
    {row multipliers : Vector α n} (row_get : ∀ j, row.get j = a.entry 0 j.succ)
    (multiplier : ∀ i, multipliers.get i = a.entry i.succ 0 / a.entry 0 0)
    (nonsingular : a.toMatrix.det ≠ 0)
    : (a.remainder multipliers row).toMatrix.det ≠ 0 := by
  refine det_ne_zero_of_kernel fun v vanishes => ?_
  let others : Vector α n := Vector.ofFn v
  let zero : Vector α (n + 1) := Vector.replicate (n + 1) 0
  have rest
      : (a.remainder multipliers row).toMatrix *ᵥ others.get
        = (descend (tailVec zero) (zero.get 0) multipliers).get := by
    rw [get_ofFn, vanishes, get_descend]
    funext i
    simp [zero]
  have whole := mulVec_consVec pivot row_get multiplier rest
  rw [get_replicate] at whole
  have extended := Matrix.eq_zero_of_mulVec_eq_zero nonsingular whole
  funext i
  have entry := congrFun extended i.succ
  simpa [consVec, others] using entry

section Choice

variable [LinearOrder α] [IsStrictOrderedRing α] {column : Vector α n}

omit [IsStrictOrderedRing α] in
theorem better_ne_none {k i : Fin n}
    : better column (some k) i ≠ none := by
  simp only [better]
  split <;> simp

/-- Where no row is picked, the rows looked at have no entry but zero, by induction on them. -/
theorem get_eq_zero_of_pivotRow?_eq_none (h : pivotRow? column = none) (i : Fin n)
    : column.get i = 0 := by
  have general (rows : List (Fin n)) (best : Option (Fin n))
      (none_picked : rows.foldl (better column) best = none)
      : best = none ∧ ∀ i ∈ rows, column.get i = 0 := by
    induction rows generalizing best with
    | nil => exact ⟨none_picked, by simp⟩
    | cons row rows ih =>
        obtain ⟨rejected, others⟩ := ih _ none_picked
        cases best with
        | some k => exact absurd rejected better_ne_none
        | none =>
            have vanishes : column.get row = 0 := by
              simpa [better] using rejected
            refine ⟨rfl, fun i member => ?_⟩
            rcases List.mem_cons.mp member with rfl | later
            · exact vanishes
            · exact others i later
  exact (general _ _ h).2 i (List.mem_finRange i)

/-- A nonsingular matrix has a factorization, by induction on its size. -/
theorem exists_factor_of_det_ne_zero (number : Nat) {a : Grid α n n}
    (nonsingular : a.toMatrix.det ≠ 0)
    : ∃ factors, factor pivotRow? number a = .ok factors := by
  induction n generalizing number with
  | zero => exact ⟨.empty, rfl⟩
  | succ n ih =>
      cases picked : pivotRow? (Vector.ofFn fun i => a.entry i 0) with
      | none =>
          -- The first column is zero then.
          refine absurd (Matrix.det_eq_zero_of_column_eq_zero 0 fun i => ?_) nonsingular
          have vanishes := get_eq_zero_of_pivotRow?_eq_none picked i
          rwa [get_ofFn] at vanishes
      | some chosen =>
          let exchanged : Grid α (n + 1) (n + 1) := swapFirst chosen a
          let row := Vector.ofFn fun j : Fin n => exchanged.entry 0 j.succ
          let multipliers :=
            Vector.ofFn fun i : Fin n => exchanged.entry i.succ 0 / exchanged.entry 0 0
          have pivot : exchanged.entry 0 0 ≠ 0 := by
            have found := get_ne_zero_of_pivotRow? picked
            rwa [get_ofFn, ← entry_swapFirst_zero] at found
          have smaller : (exchanged.remainder multipliers row).toMatrix.det ≠ 0 :=
            det_remainder_ne_zero pivot (fun j => by rw [get_ofFn]) (fun i => by rw [get_ofFn])
              (det_swapFirst_ne_zero nonsingular)
          obtain ⟨rest, made⟩ := ih (number + 1) smaller
          refine ⟨.step chosen (exchanged.entry 0 0) row multipliers rest, ?_⟩
          rw [factor_succ, picked]
          exact congrArg (Except.map (step chosen (exchanged.entry 0 0) row multipliers)) made

end Choice

end Elimination

/-- An engine is reliable if it factors every nonsingular matrix and then answers every system. -/
structure Engine.IsReliable {α σ : Type} [Field α] (engine : Engine α σ) : Prop where
  factorizes
    : ∀ {size : Nat} (t : Triplet α size size) (held : σ),
        (Entries.toMatrix t.entries).det ≠ 0
        → ∃ factors after, engine.factorize t held = (.ok factors, after)
  solves
    : ∀ {size : Nat} (factors : engine.Factors size) (transposed : Bool) (rhs : Vector α size)
        (held : σ),
        ∃ x after, engine.solve factors transposed rhs held = (.ok x, after)

namespace Direct

variable {α : Type} [Field α] [LinearOrder α] [IsStrictOrderedRing α]

/-- Both direct engines are reliable: over a field no pivot and no entry is infinite. -/
theorem engine_isReliable (kind : Direct)
    : (engine kind : Engine α Unit).IsReliable := by
  constructor
  · intro size t held nonsingular
    rw [← t.toMatrix_toGrid] at nonsingular
    obtain ⟨factors, made⟩ := Elimination.exists_factor_of_det_ne_zero 1 nonsingular
    refine ⟨factors, (), ?_⟩
    cases kind with
    | sparse => simp [engine, factorSparse, made]
    | dense =>
        have finite : t.toGrid.all allFinite = true := by
          simp [allFinite]
        have rule
            : @Elimination.definedFirstRow? α _ _ _ _ _ _ = @Elimination.pivotRow? α _ _ _ _ := by
          funext k column
          exact Elimination.definedFirstRow?_eq_pivotRow?
        simp [engine, factorDense, finite, rule, made]
  · intro size factors transposed rhs held
    exact ⟨_, (), rfl⟩

end Direct

end InteriorPoint
