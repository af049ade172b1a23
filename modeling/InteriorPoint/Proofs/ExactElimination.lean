import InteriorPoint.Backend.Direct
import InteriorPoint.Proofs.EntryMatrix

/-! Elimination solves exactly over an ordered field. One step splits a system into its first row
and a smaller system for the other unknowns, so the solution is right by induction on the size.
-/

namespace InteriorPoint

open scoped Matrix

namespace Elimination

variable {α : Type} [Field α] {n : Nat}

theorem get_swapFirst {β : Type} (k : Fin (n + 1)) (x : Vector β (n + 1))
    : (swapFirst k x).get = x.get ∘ Equiv.swap 0 k := by
  funext i
  simp only [swapFirst, get_eq_getElem, Function.comp_apply, Vector.getElem_swap,
    Equiv.swap_apply_def, Fin.ext_iff, Fin.val_zero]
  split_ifs <;> rfl

omit [Field α] in
/-- After an exchange the chosen row comes first. -/
theorem entry_swapFirst_zero (k j : Fin (n + 1)) (a : Grid α (n + 1) (n + 1))
    : Grid.entry (swapFirst k a) 0 j = a.entry k j := by
  rw [Grid.entry, get_swapFirst, Function.comp_apply, Equiv.swap_apply_left, Grid.entry]

omit [Field α] in
theorem toMatrix_swapFirst (k : Fin (n + 1)) (a : Grid α (n + 1) (n + 1))
    : Grid.toMatrix (swapFirst k a) = (Grid.toMatrix a).submatrix (Equiv.swap 0 k) id := by
  ext i j
  exact congrArg (fun row : Vector α (n + 1) => row.get j) (congrFun (get_swapFirst k a) i)

/-- A system is solved as soon as it is solved after an exchange of rows on both sides. -/
theorem mulVec_of_swapFirst {k : Fin (n + 1)} {a : Grid α (n + 1) (n + 1)}
    {b x : Vector α (n + 1)}
    (exchanged : (Grid.toMatrix (swapFirst k a)) *ᵥ x.get = (swapFirst k b).get)
    : a.toMatrix *ᵥ x.get = b.get := by
  rw [toMatrix_swapFirst, get_swapFirst] at exchanged
  have row (i : Fin (n + 1)) := congrFun exchanged ((Equiv.swap 0 k).symm i)
  funext i
  simpa [Matrix.mulVec, Matrix.submatrix] using row i

/-- One step of an elimination, backwards: where the first equation gives the first unknown and
the others solve what is left of the other equations, the whole system is solved.
-/
theorem mulVec_consVec {a : Grid α (n + 1) (n + 1)} (pivot : a.entry 0 0 ≠ 0)
    {row multipliers others : Vector α n} {b : Vector α (n + 1)}
    (row_get : ∀ j, row.get j = a.entry 0 j.succ)
    (multiplier : ∀ i, multipliers.get i = a.entry i.succ 0 / a.entry 0 0)
    (rest
      : (a.remainder multipliers row).toMatrix *ᵥ others.get
        = (descend (tailVec b) (b.get 0) multipliers).get)
    : a.toMatrix *ᵥ (consVec ((b.get 0 - dot row others) / a.entry 0 0) others).get = b.get := by
  have product : dot row others = ∑ j, a.entry 0 j.succ * others.get j := by
    rw [dot_eq_dotProduct]
    exact Finset.sum_congr rfl fun j _ => by rw [row_get]
  funext i
  simp only [Matrix.mulVec, dotProduct, Fin.sum_univ_succ, consVec, get_ofFn, Fin.cases_zero,
    Fin.cases_succ, Grid.toMatrix, Matrix.of_apply, product]
  cases i using Fin.cases with
  | zero =>
      rw [mul_div_cancel₀ _ pivot]
      exact sub_add_cancel ..
  | succ i =>
      -- What is left of the equation is the equation less its multiple of the first one.
      have left
          : ∑ j, (a.remainder multipliers row).entry i j * others.get j
            = ∑ j, a.entry i.succ j.succ * others.get j
              - multipliers.get i * ∑ j, a.entry 0 j.succ * others.get j := by
        rw [Finset.mul_sum, ← Finset.sum_sub_distrib]
        refine Finset.sum_congr rfl fun j _ => ?_
        rw [Grid.remainder, Grid.entry_ofFn, row_get]
        ring
      have solved
          : ∑ j, (a.remainder multipliers row).entry i j * others.get j
            = b.get i.succ - b.get 0 * multipliers.get i := by
        have below := congrFun rest i
        rw [get_descend] at below
        simpa [Matrix.mulVec, dotProduct, Grid.toMatrix] using below
      have whole : ∑ j, a.entry i.succ j.succ * others.get j
          = b.get i.succ - b.get 0 * multipliers.get i
            + multipliers.get i * ∑ j, a.entry 0 j.succ * others.get j := by
        rw [← solved, left]
        ring
      rw [whole, multiplier]
      field_simp
      ring

/-- An elimination of at least one column, with the first step written out. -/
theorem factor_succ (choose : {k : Nat} → Vector α k → Option (Fin k)) (number : Nat)
    (a : Grid α (n + 1) (n + 1))
    : factor choose number a
      = match choose (Vector.ofFn fun i => a.entry i 0) with
        | none => .error number
        | some chosen =>
            let a : Grid α (n + 1) (n + 1) := swapFirst chosen a
            let row := Vector.ofFn fun j : Fin n => a.entry 0 j.succ
            let multipliers := Vector.ofFn fun i : Fin n => a.entry i.succ 0 / a.entry 0 0
            (factor choose (number + 1) (a.remainder multipliers row)).map
              (step chosen (a.entry 0 0) row multipliers) :=
  rfl

/-- An elimination that succeeds picked a row for its first column, and goes on with what is left
of the other rows.
-/
theorem factor_ok {choose : {k : Nat} → Vector α k → Option (Fin k)} {number : Nat}
    {a : Grid α (n + 1) (n + 1)} {factors : Elimination α (n + 1)}
    (made : factor choose number a = .ok factors)
    : ∃ (chosen : Fin (n + 1)) (row multipliers : Vector α n) (rest : Elimination α n),
        choose (Vector.ofFn fun i => a.entry i 0) = some chosen
        ∧ (∀ j, row.get j = Grid.entry (swapFirst chosen a) 0 j.succ)
        ∧ (∀ i, multipliers.get i
          = Grid.entry (swapFirst chosen a) i.succ 0 / Grid.entry (swapFirst chosen a) 0 0)
        ∧ factor choose (number + 1) (Grid.remainder (swapFirst chosen a) multipliers row)
          = .ok rest
        ∧ factors = step chosen (Grid.entry (swapFirst chosen a) 0 0) row multipliers rest := by
  rw [factor_succ] at made
  split at made
  · simp at made
  · next chosen picked =>
      dsimp only at made
      generalize smaller : factor choose (number + 1) _ = result at made
      cases result with
      | error number => simp [Except.map] at made
      | ok rest =>
          refine ⟨chosen, _, _, rest, picked, ?_, ?_, smaller, (Except.ok.inj made).symm⟩
          · intro j
            rw [get_ofFn]
          · intro i
            rw [get_ofFn]

/-- Where the rule only picks rows with an entry that is not zero, the factors solve exactly, by
induction on the size.
-/
theorem mulVec_solve {choose : {k : Nat} → Vector α k → Option (Fin k)}
    (sound : ∀ {k : Nat} {column : Vector α k} {i : Fin k},
      choose column = some i → column.get i ≠ 0)
    {number : Nat} {a : Grid α n n} {factors : Elimination α n}
    (made : factor choose number a = .ok factors) (b : Vector α n)
    : a.toMatrix *ᵥ (factors.solve b).get = b.get := by
  induction n generalizing number with
  | zero => exact Subsingleton.elim ..
  | succ n ih =>
      obtain ⟨chosen, row, multipliers, rest, picked, row_get, multiplier, smaller, rfl⟩ :=
        factor_ok made
      have pivot : Grid.entry (swapFirst chosen a) 0 0 ≠ 0 := by
        have found := sound picked
        rw [get_ofFn] at found
        rwa [entry_swapFirst_zero]
      refine mulVec_of_swapFirst (k := chosen) ?_
      exact mulVec_consVec pivot row_get multiplier (ih smaller _)

section Choice

variable [LinearOrder α] [IsStrictOrderedRing α] {column : Vector α n}

/-- The better of two rows has an entry that is not zero, if the one kept so far has. -/
theorem get_ne_zero_of_better {best : Option (Fin n)} {i k : Fin n}
    (before : ∀ j, best = some j → column.get j ≠ 0) (h : better column best i = some k)
    : column.get k ≠ 0 := by
  cases best with
  | none =>
      simp only [better, magnitude_eq_abs] at h
      split at h
      · next found =>
          obtain rfl := Option.some.inj h
          exact abs_pos.mp found
      · simp at h
  | some j =>
      simp only [better, magnitude_eq_abs] at h
      split at h
      · next greater =>
          obtain rfl := Option.some.inj h
          exact abs_pos.mp ((abs_nonneg _).trans_lt greater)
      · exact before k h

/-- The row that is picked has an entry that is not zero, by induction on the rows looked at. -/
theorem get_ne_zero_of_pivotRow? {k : Fin n} (h : pivotRow? column = some k)
    : column.get k ≠ 0 := by
  have general (rows : List (Fin n)) (best : Option (Fin n))
      (before : ∀ j, best = some j → column.get j ≠ 0)
      : ∀ j, rows.foldl (better column) best = some j → column.get j ≠ 0 := by
    induction rows generalizing best with
    | nil => exact before
    | cons i rows ih => exact ih _ fun j found => get_ne_zero_of_better before found
  exact general (List.finRange n) none (by simp) k h

omit [IsStrictOrderedRing α] in
/-- Without undefined entries there is no other row to fall back on. -/
theorem definedFirstRow?_eq_pivotRow?
    : definedFirstRow? column = pivotRow? column := by
  simp only [definedFirstRow?, isUndefined_eq_false]
  rw [List.find?_eq_none.mpr (by simp), Option.or_none]

end Choice

end Elimination

/-- An engine is exact if every answer that it gives with factors of a matrix solves the system
of that matrix.
-/
def Engine.IsExact {α σ : Type} [Field α] (engine : Engine α σ) : Prop :=
  ∀ {size : Nat} (t : Triplet α size size) (before after : σ) (factors : engine.Factors size),
    engine.factorize t before = (.ok factors, after)
      → ∀ (rhs x : Vector α size) (held left : σ),
          engine.solve factors false rhs held = (.ok x, left)
          → Entries.toMatrix t.entries *ᵥ x.get = rhs.get

namespace Direct

variable {α : Type} [Field α] [LinearOrder α] [IsStrictOrderedRing α]

omit [IsStrictOrderedRing α] in
/-- The factors of both engines come from the same elimination. -/
theorem factor_of_factorize {kind : Direct} {n : Nat} {t : Triplet α n n}
    {factors : Elimination α n} (made : ((engine kind).factorize t ()).1 = .ok factors)
    : Elimination.factor Elimination.pivotRow? 1 t.toGrid = .ok factors := by
  cases kind with
  | sparse =>
      simp only [engine, factorSparse] at made
      split at made
      · simp at made
      · next found =>
          split at made
          · rwa [Except.ok.inj made] at found
          · simp at made
  | dense =>
      have rule
          : @Elimination.definedFirstRow? α _ _ _ _ _ _ = @Elimination.pivotRow? α _ _ _ _ := by
        funext k column
        exact Elimination.definedFirstRow?_eq_pivotRow?
      simp only [engine, factorDense, rule] at made
      split at made
      · split at made
        · simp at made
        · next found => rwa [Except.ok.inj made] at found
      · simp at made

/-- Both direct engines solve exactly. -/
theorem engine_isExact (kind : Direct)
    : (engine kind : Engine α Unit).IsExact := by
  intro size t _ _ factors made rhs x _ _ solved
  obtain rfl : factors.solve rhs = x := Except.ok.inj (Prod.mk.inj solved).1
  have found : Elimination.factor Elimination.pivotRow? 1 t.toGrid = .ok factors :=
    factor_of_factorize (congrArg Prod.fst made)
  rw [← t.toMatrix_toGrid]
  exact Elimination.mulVec_solve Elimination.get_ne_zero_of_pivotRow? found rhs

end Direct

end InteriorPoint
