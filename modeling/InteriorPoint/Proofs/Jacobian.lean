import InteriorPoint.Proofs.Assembly
import InteriorPoint.Proofs.Residual

/-! The assembled Jacobian is the derivative of the residual. The rows of variables, multipliers
and slacks of its product with a direction follow from the blocks placed there, and with them the
residual of a moved point.
-/

namespace InteriorPoint

open scoped Matrix

variable {α : Type} {m n : Nat}

namespace LinearProgram

-----------------------------------------------------------------------------------------
-- The five blocks act on a direction row by row
-----------------------------------------------------------------------------------------

section Action

variable [Field α] (p : LinearProgram α m n) (x s : Vector α n) (d : Blocks α m n)

/-- In the rows of the variables the Jacobian takes a direction to `Aᵀ dlam + ds`. -/
theorem jacobian_mulVec_xPlace (i : Fin n)
    : (Entries.toMatrix (p.matrix.jacobianEntries x s) *ᵥ d.flatten.get) (Blocks.xPlace i)
      = (p.toMatrixᵀ *ᵥ d.lam.get) i + d.s.get i := by
  simp only [Columns.jacobianEntries, Entries.toMatrix_append, Matrix.add_mulVec, Pi.add_apply]
  rw [Entries.toMatrix_place_mulVec Blocks.xPlace_injective,
    Entries.toMatrix_place_mulVec_other _ _ _ (Blocks.xPlace_ne_lamPlace i),
    Entries.toMatrix_place_mulVec Blocks.xPlace_injective,
    Entries.toMatrix_place_mulVec_other _ _ _ (Blocks.xPlace_ne_sPlace i),
    Entries.toMatrix_place_mulVec_other _ _ _ (Blocks.xPlace_ne_sPlace i),
    Entries.toMatrix_transpose, Entries.toMatrix_diagonal, Matrix.mulVec_diagonal,
    d.flatten_comp_lamPlace, d.flatten_comp_sPlace]
  simp [toMatrix]

/-- In the rows of the multipliers it gives `A dx`. -/
theorem jacobian_mulVec_lamPlace (i : Fin m)
    : (Entries.toMatrix (p.matrix.jacobianEntries x s) *ᵥ d.flatten.get) (Blocks.lamPlace i)
      = (p.toMatrix *ᵥ d.x.get) i := by
  simp only [Columns.jacobianEntries, Entries.toMatrix_append, Matrix.add_mulVec, Pi.add_apply]
  rw [Entries.toMatrix_place_mulVec_other _ _ _ fun j => (Blocks.xPlace_ne_lamPlace j i).symm,
    Entries.toMatrix_place_mulVec Blocks.lamPlace_injective,
    Entries.toMatrix_place_mulVec_other _ _ _ fun j => (Blocks.xPlace_ne_lamPlace j i).symm,
    Entries.toMatrix_place_mulVec_other _ _ _ (Blocks.lamPlace_ne_sPlace i),
    Entries.toMatrix_place_mulVec_other _ _ _ (Blocks.lamPlace_ne_sPlace i),
    d.flatten_comp_xPlace]
  simp [toMatrix]

/-- In the rows of the slacks it gives `s dx + x ds`. -/
theorem jacobian_mulVec_sPlace (i : Fin n)
    : (Entries.toMatrix (p.matrix.jacobianEntries x s) *ᵥ d.flatten.get) (Blocks.sPlace i)
      = s.get i * d.x.get i + x.get i * d.s.get i := by
  simp only [Columns.jacobianEntries, Entries.toMatrix_append, Matrix.add_mulVec, Pi.add_apply]
  rw [Entries.toMatrix_place_mulVec_other _ _ _ fun j => (Blocks.xPlace_ne_sPlace j i).symm,
    Entries.toMatrix_place_mulVec_other _ _ _ fun j => (Blocks.lamPlace_ne_sPlace j i).symm,
    Entries.toMatrix_place_mulVec_other _ _ _ fun j => (Blocks.xPlace_ne_sPlace j i).symm,
    Entries.toMatrix_place_mulVec Blocks.sPlace_injective,
    Entries.toMatrix_place_mulVec Blocks.sPlace_injective,
    Entries.toMatrix_diagonal, Entries.toMatrix_diagonal, Matrix.mulVec_diagonal,
    Matrix.mulVec_diagonal, d.flatten_comp_xPlace, d.flatten_comp_sPlace]
  simp

/-- The residual of a moved point: the residual before, the Jacobian applied to the move, and
the products of the two moves in the rows of the slacks. The other rows are affine.
-/
theorem residual_add (y : Blocks α m n)
    : (p.residual (y + d)).flatten.get
      = (p.residual y).flatten.get
        + Entries.toMatrix (p.matrix.jacobianEntries y.x y.s) *ᵥ d.flatten.get
        + d.secondOrder.flatten.get := by
  funext k
  simp only [Pi.add_apply]
  cases k using Blocks.placeCases with
  | x i =>
      rw [jacobian_mulVec_xPlace, Blocks.flatten_get_xPlace, Blocks.flatten_get_xPlace,
        Blocks.flatten_get_xPlace, residual_x, residual_x, Blocks.add_lam, Blocks.add_s,
        get_addVec, get_addVec, Matrix.mulVec_add, Blocks.secondOrder, get_replicate]
      simp only [Pi.add_apply, Pi.sub_apply]
      ring
  | lam i =>
      rw [jacobian_mulVec_lamPlace, Blocks.flatten_get_lamPlace, Blocks.flatten_get_lamPlace,
        Blocks.flatten_get_lamPlace, residual_lam, residual_lam, Blocks.add_x, get_addVec,
        Matrix.mulVec_add, Blocks.secondOrder, get_replicate]
      simp only [Pi.add_apply, Pi.sub_apply]
      ring
  | s i =>
      rw [jacobian_mulVec_sPlace, Blocks.flatten_get_sPlace, Blocks.flatten_get_sPlace,
        Blocks.flatten_get_sPlace, residual_s, residual_s, Blocks.add_x, Blocks.add_s,
        get_addVec, get_addVec, Blocks.secondOrder, get_mulEntries]
      simp only [Pi.add_apply, Pi.mul_apply]
      ring

end Action

-----------------------------------------------------------------------------------------
-- Whatever a solver holds, assembly leaves the derivative at the point
-----------------------------------------------------------------------------------------

/-- What the Jacobian of a solver can hold: it starts out empty, and a caller may assemble it at
any point or edit it entry by entry, any number of times.
-/
inductive HoldsJacobian [One α] (p : LinearProgram α m n)
    : Triplet α (n + m + n) (n + m + n) → Prop
  | empty : p.HoldsJacobian p.emptyJacobian
  | assembled {t next} (y : Blocks α m n) (before : p.HoldsJacobian t)
    (done : p.assemble y t = .ok next)
    : p.HoldsJacobian next
  | edited {t next} (command : Triplet.Command α) (before : p.HoldsJacobian t)
    (done : t.apply command = .ok next)
    : p.HoldsJacobian next

/-- The Jacobian at a point: it is full, its entries are those of the matrix and of the current
variables and slacks, all inside, and its matrix is the derivative of the residual.
-/
structure IsJacobianAt [Field α] (p : LinearProgram α m n) (y : Blocks α m n)
    (t : Triplet α (n + m + n) (n + m + n))
    : Prop where
  full : t.count = t.capacity
  count_eq : t.count = 2 * p.matrix.count + 3 * n
  entries_eq : t.entries = p.matrix.jacobianEntries y.x y.s
  inside : ∀ e ∈ t.entries, e.row.val < n + m + n ∧ e.col.val < n + m + n
  derivative
    : ∀ d : Blocks α m n,
        (p.residual (y + d)).flatten.get
        = (p.residual y).flatten.get + t.toGrid.toMatrix *ᵥ d.flatten.get
          + d.secondOrder.flatten.get

/-- The room of a Jacobian is the one it was made with, by induction on what happened to it. -/
theorem HoldsJacobian.capacity_eq [One α] {p : LinearProgram α m n}
    {t : Triplet α (n + m + n) (n + m + n)} (h : p.HoldsJacobian t)
    : t.capacity = p.jacobianCapacity := by
  induction h with
  | empty => rfl
  | assembled y before done ih =>
      rw [p.assemble_eq y ih.ge] at done
      obtain rfl := Except.ok.inj done
      exact ih
  | edited command before done ih => rw [Triplet.capacity_apply done, ih]

/-- Assembly succeeds on whatever the Jacobian of a solver can hold, and leaves the exact
derivative of the residual at the point.
-/
theorem assemble_isJacobianAt [Field α] (p : LinearProgram α m n)
    {t : Triplet α (n + m + n) (n + m + n)} (h : p.HoldsJacobian t) (y : Blocks α m n)
    : ∃ next, p.assemble y t = .ok next ∧ p.IsJacobianAt y next ∧ p.HoldsJacobian next := by
  have done := p.assemble_eq y h.capacity_eq.ge
  have count : (p.matrix.jacobianEntries y.x y.s).length = p.jacobianCapacity :=
    p.matrix.length_jacobianEntries y.x y.s
  refine ⟨_, done, ?_, h.assembled y done⟩
  exact {
    full := count.trans h.capacity_eq.symm
    count_eq := count
    entries_eq := rfl
    inside := fun e _ => ⟨e.row.isLt, e.col.isLt⟩
    derivative := by
      intro d
      rw [Triplet.toMatrix_toGrid, residual_add]
  }

/-- Assembly over a stored zero, into a Jacobian that a caller has put an entry in. -/
theorem assemble_isJacobianAt_storedZero
    : sampleWithZero.HoldsJacobian ⟨10, [⟨0, 0, 7⟩]⟩
      ∧ ∃ next, sampleWithZero.assemble ⟨#v[2, 3], #v[-1], #v[5, 0]⟩ ⟨10, [⟨0, 0, 7⟩]⟩ = .ok next
        ∧ sampleWithZero.IsJacobianAt ⟨#v[2, 3], #v[-1], #v[5, 0]⟩ next
        ∧ sampleWithZero.HoldsJacobian next := by
  have held : sampleWithZero.HoldsJacobian ⟨10, [⟨0, 0, 7⟩]⟩ :=
    .edited (.put 0 0 7) .empty rfl
  exact ⟨held, sampleWithZero.assemble_isJacobianAt held _⟩

end LinearProgram

end InteriorPoint
