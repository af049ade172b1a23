import InteriorPoint.Problem.Random
import InteriorPoint.Proofs.CertificateAgreement
import InteriorPoint.Proofs.IndependentRows

/-! Random programs have an optimum whatever is drawn. The unit columns make the rows independent
wherever the order puts them, the drawn point is feasible, and the drawn multipliers and slacks
bound the objective from below and every variable of a level set from above.
-/

namespace InteriorPoint

open scoped Matrix

-----------------------------------------------------------------------------------------
-- The columns of a drawn matrix
-----------------------------------------------------------------------------------------

namespace Draws

variable {α : Type} [Field α] {m k : Nat}

omit [Field α] in
/-- An order that repeats no column leaves none out. -/
theorem exists_place (d : Draws α m k) (j : Fin (k + m))
    : ∃ place, d.order.get place = j := by
  have injective : Function.Injective d.order.get := by
    rw [← List.nodup_ofFn, ← toList_eq_ofFn]
    exact d.order_nodup
  exact Finite.surjective_of_injective injective j

/-- The columns after those of the block are unit columns. -/
theorem toMatrix_unit (d : Draws α m k) {place : Fin (k + m)} {j : Fin m}
    (found : d.order.get place = Fin.natAdd k j) (i : Fin m)
    : Entries.toMatrix d.matrix.entries i place = if i = j then 1 else 0 := by
  have column : d.matrix.column.get place = [(j, 1)] := by
    have arranged
        : d.matrix.column.get place
          = (d.block.beside .identity).column.get (d.order.get place) := by
      simp [matrix, Columns.arrange]
    rw [arranged, found]
    simp [Columns.beside, Columns.identity]
  rw [Columns.toMatrix_entries_apply, column]
  simp [Columns.rowSum, eq_comm]

theorem program_toMatrix (d : Draws α m k)
    : d.program.toMatrix = Entries.toMatrix d.matrix.entries :=
  Columns.toMatrix_canonical d.matrix.entries

/-- A combination of the rows has its multipliers among its entries, so the rows are independent. -/
theorem independent (d : Draws α m k)
    : LinearIndependent α d.program.toMatrix.row := by
  refine Matrix.vecMul_injective_iff.mp fun u v same => funext fun j => ?_
  obtain ⟨place, found⟩ := d.exists_place (Fin.natAdd k j)
  have multiplier (w : Fin m → α) : (w ᵥ* d.program.toMatrix) place = w j := by
    simp [Matrix.vecMul, dotProduct, d.program_toMatrix, d.toMatrix_unit found]
  rw [← multiplier u, ← multiplier v]
  exact congrFun same place

/-- What is drawn when a problem is made: there are equations, and more variables than equations. -/
theorem exists_toProblem {rows cols : Int} {density : Float} {seed : Option Int}
    {p : Problem Float} (made : problem rows cols density seed = .ok p)
    : ∃ (m k : Nat) (d : Draws Float m k),
        0 < m
        ∧ 0 < k
        ∧ rows = m
        ∧ cols = k + m
        ∧ p = d.toProblem ("random_" ++ toString rows ++ "x" ++ toString cols) := by
  simp only [problem] at made
  split at made
  · cases made
  · next dimensions =>
      split at made
      · cases made
      · obtain ⟨count, -, made⟩ := bind_ok made
        exact ⟨rows.toNat, (cols - rows).toNat,
          draw rows.toNat (cols - rows).toNat count (.ofSeed (seed.getD 0).toNat),
          by omega, by omega, by omega, by omega, (Except.ok.inj made).symm⟩

-----------------------------------------------------------------------------------------
-- What a drawn program promises
-----------------------------------------------------------------------------------------

/-- The promise of a problem that is made of draws. It has as many equations and variables as were
drawn, and what is set up from it is the drawn program; the rows are independent, so there is a
starting point; the drawn variables solve the equations, the drawn multipliers and slacks those of
the dual; the objective of a feasible point is at least the dual objective, and where it is at most
some value, no variable is greater than the slack of its column allows.
-/
structure KeepsPromise (d : Draws α m k) [LinearOrder α] (p : Problem α) : Prop where
  shape_eq : p.shape = [m, k + m]
  posed
    : ∃ a,
        p.matrix.sparse? = some a
        ∧ AnyProgram.of a p.rightSide p.cost = .ok ⟨m, k + m, d.program⟩
  independent : LinearIndependent α d.program.toMatrix.row
  starts : ∃ y, d.program.startingPoint = .ok y
  primal : d.program.toMatrix *ᵥ d.x.get = d.program.rightSide.get
  dual : d.program.toMatrixᵀ *ᵥ d.lam.get + d.s.get = d.program.cost.get
  dual_le
    : ∀ x, 0 ≤ x
      → d.program.toMatrix *ᵥ x = d.program.rightSide.get
      → d.program.rightSide.get ⬝ᵥ d.lam.get ≤ d.program.cost.get ⬝ᵥ x
  le_of_level
    : ∀ x value, 0 ≤ x
      → d.program.toMatrix *ᵥ x = d.program.rightSide.get
      → d.program.cost.get ⬝ᵥ x ≤ value
      → ∀ j, x j ≤ (value - d.program.rightSide.get ⬝ᵥ d.lam.get) / d.s.get j

theorem primal_solved (d : Draws α m k)
    : d.program.toMatrix *ᵥ d.x.get = d.program.rightSide.get := by
  rw [d.program_toMatrix, program, Entries.get_mulVec]

theorem dual_solved (d : Draws α m k)
    : d.program.toMatrixᵀ *ᵥ d.lam.get + d.s.get = d.program.cost.get := by
  rw [d.program_toMatrix, program, get_addVec, Entries.get_trMulVec]

/-- At a feasible point the objective exceeds the dual one by what the slacks make of the variables.
-/
theorem cost_eq (d : Draws α m k) {x : Fin (k + m) → α}
    (feasible : d.program.toMatrix *ᵥ x = d.program.rightSide.get)
    : d.program.cost.get ⬝ᵥ x
      = d.program.rightSide.get ⬝ᵥ d.lam.get + d.s.get ⬝ᵥ x := by
  rw [← d.dual_solved, add_dotProduct, Matrix.mulVec_transpose, ← Matrix.dotProduct_mulVec,
    feasible, dotProduct_comm d.lam.get]

/-- Whatever is drawn, the promise is kept if the slacks are positive. -/
theorem keepsPromise [LinearOrder α] [IsStrictOrderedRing α] (d : Draws α m k) (name : String)
    (rows : 0 < m) (slack : ∀ j, 0 < d.s.get j)
    : d.KeepsPromise (d.toProblem name) := by
  exact {
    shape_eq := rfl
    posed := ⟨_, Loose.sparse?_ofSparse _, AnyProgram.of_toList rows (by omega) d.program⟩
    independent := d.independent
    starts := by
      rcases d.program.startingPoint_cases with ⟨-, _, -, -, found⟩ | ⟨dependent, -⟩
      · exact ⟨_, found⟩
      · exact absurd d.independent dependent
    primal := d.primal_solved
    dual := d.dual_solved
    dual_le := by
      intro x nonneg feasible
      rw [d.cost_eq feasible]
      exact le_add_of_nonneg_right
        (dotProduct_nonneg_of_nonneg (fun j => (slack j).le) nonneg)
    le_of_level := by
      intro x value nonneg feasible level j
      have one : d.s.get j * x j ≤ d.s.get ⬝ᵥ x :=
        Finset.single_le_sum (f := fun j => d.s.get j * x j)
          (fun i _ => mul_nonneg (slack i).le (nonneg i)) (Finset.mem_univ j)
      rw [d.cost_eq feasible] at level
      rw [le_div_iff₀ (slack j), mul_comm]
      linarith
  }

/-- Without any entry in the block, and with the columns in another order. -/
theorem keepsPromise_emptyBlock
    : ∃ d : Draws ℚ 1 1,
        d.block = ⟨#v[[]]⟩
        ∧ d.order = #v[1, 0]
        ∧ 0 < 1
        ∧ (∀ j, 0 < d.s.get j)
        ∧ d.KeepsPromise (d.toProblem "random_1x2") := by
  have slack (j : Fin 2) : (0 : ℚ) < (#v[1, 1 / 2] : Vector ℚ 2).get j := by
    fin_cases j <;> decide +kernel
  exact ⟨⟨⟨#v[[]]⟩, #v[1, 0], by decide, #v[1, 2], #v[-3], #v[1, 1 / 2]⟩, rfl, rfl, by decide,
    slack, keepsPromise _ _ (by decide) slack⟩

end Draws

end InteriorPoint
