import InteriorPoint.Method.Program
import InteriorPoint.Proofs.EntryMatrix

/-! The places of variables, multipliers and slacks in a long vector, and small matrices put at
such places. A placed matrix sees of a vector only the places of its columns.
-/

namespace InteriorPoint

open scoped Matrix

variable {α : Type} {m n : Nat}

namespace Blocks

/-- The place of a variable in the long vector. -/
def xPlace (i : Fin n) : Fin (n + m + n) :=
  Fin.castAdd n (Fin.castAdd m i)

/-- The place of a multiplier in the long vector. -/
def lamPlace (i : Fin m) : Fin (n + m + n) :=
  Fin.castAdd n (Fin.natAdd n i)

/-- The place of a slack in the long vector. -/
def sPlace (i : Fin n) : Fin (n + m + n) :=
  Fin.natAdd (n + m) i

/-- Every place belongs to one of the three parts. -/
@[elab_as_elim]
theorem placeCases {motive : Fin (n + m + n) → Prop} (x : ∀ i : Fin n, motive (xPlace i))
    (lam : ∀ i : Fin m, motive (lamPlace i)) (s : ∀ i : Fin n, motive (sPlace i))
    (k : Fin (n + m + n))
    : motive k :=
  Fin.addCases (Fin.addCases x lam) s k

theorem xPlace_injective
    : Function.Injective (xPlace : Fin n → Fin (n + m + n)) :=
  (Fin.castAdd_injective _ n).comp (Fin.castAdd_injective n m)

theorem lamPlace_injective
    : Function.Injective (lamPlace : Fin m → Fin (n + m + n)) :=
  (Fin.castAdd_injective _ n).comp (Fin.natAdd_injective m n)

theorem sPlace_injective
    : Function.Injective (sPlace : Fin n → Fin (n + m + n)) :=
  Fin.natAdd_injective n (n + m)

theorem xPlace_ne_lamPlace (i : Fin n) (j : Fin m)
    : xPlace i ≠ lamPlace j := by
  simp only [xPlace, lamPlace, ne_eq, Fin.ext_iff, Fin.val_castAdd, Fin.val_natAdd]
  omega

theorem xPlace_ne_sPlace (i j : Fin n)
    : (xPlace i : Fin (n + m + n)) ≠ sPlace j := by
  simp only [xPlace, sPlace, ne_eq, Fin.ext_iff, Fin.val_castAdd, Fin.val_natAdd]
  omega

theorem lamPlace_ne_sPlace (i : Fin m) (j : Fin n)
    : lamPlace i ≠ sPlace j := by
  simp only [lamPlace, sPlace, ne_eq, Fin.ext_iff, Fin.val_castAdd, Fin.val_natAdd]
  omega

@[simp]
theorem flatten_get_xPlace (y : Blocks α m n) (i : Fin n)
    : y.flatten.get (xPlace i) = y.x.get i := by
  simp [flatten, xPlace]

@[simp]
theorem flatten_get_lamPlace (y : Blocks α m n) (i : Fin m)
    : y.flatten.get (lamPlace i) = y.lam.get i := by
  simp [flatten, lamPlace]

@[simp]
theorem flatten_get_sPlace (y : Blocks α m n) (i : Fin n)
    : y.flatten.get (sPlace i) = y.s.get i := by
  simp only [flatten, sPlace, get_eq_getElem, Fin.val_natAdd]
  rw [Vector.getElem_append_right (by omega) (by omega)]
  simp only [Nat.add_sub_cancel_left]

/-- The variables are the first part of the long vector, as a function. -/
theorem flatten_comp_xPlace (y : Blocks α m n)
    : y.flatten.get ∘ xPlace = y.x.get :=
  funext y.flatten_get_xPlace

theorem flatten_comp_lamPlace (y : Blocks α m n)
    : y.flatten.get ∘ lamPlace = y.lam.get :=
  funext y.flatten_get_lamPlace

theorem flatten_comp_sPlace (y : Blocks α m n)
    : y.flatten.get ∘ sPlace = y.s.get :=
  funext y.flatten_get_sPlace

/-- Cutting a long vector in three and joining the parts gives the vector back, place by place. -/
theorem flatten_ofFlat (v : Vector α (n + m + n))
    : (ofFlat v).flatten = v := by
  refine vector_ext_get (funext fun k => ?_)
  cases k using placeCases with
  | x i =>
      rw [flatten_get_xPlace, ofFlat, get_ofFn]
      rfl
  | lam i =>
      rw [flatten_get_lamPlace, ofFlat, get_ofFn]
      rfl
  | s i =>
      rw [flatten_get_sPlace, ofFlat, get_ofFn]
      rfl

/-- Points are added part by part. -/
instance [Add α] : Add (Blocks α m n) where
  add y d := ⟨addVec y.x d.x, addVec y.lam d.lam, addVec y.s d.s⟩

/-- The part of a residual that a move changes to second order: the products of the move of the
variables with the move of the slacks.
-/
def secondOrder [Zero α] [Mul α] (d : Blocks α m n) : Blocks α m n where
  x := Vector.replicate n 0
  lam := Vector.replicate m 0
  s := mulEntries d.x d.s

@[simp]
theorem add_x [Add α] (y d : Blocks α m n)
    : (y + d).x = addVec y.x d.x :=
  rfl

@[simp]
theorem add_lam [Add α] (y d : Blocks α m n)
    : (y + d).lam = addVec y.lam d.lam :=
  rfl

@[simp]
theorem add_s [Add α] (y d : Blocks α m n)
    : (y + d).s = addVec y.s d.s :=
  rfl

end Blocks

section Placed

/-- The same value at other places. -/
def Entry.place {p q : Nat} (row : Fin p → Fin m) (col : Fin q → Fin n) (e : Entry α p q)
    : Entry α m n :=
  ⟨row e.row, col e.col, e.value⟩

/-- The entries of a diagonal matrix. -/
def Entries.diagonal (v : Vector α n) : List (Entry α n n) :=
  List.ofFn fun i => ⟨i, i, v.get i⟩

@[simp]
theorem Entries.length_diagonal (v : Vector α n)
    : (Entries.diagonal v).length = n := by
  simp [Entries.diagonal]

variable [Field α] {p q : Nat} {row : Fin p → Fin m} {col : Fin q → Fin n}

/-- A placed matrix sees of a vector only the places of its columns, and answers at the places
of its rows.
-/
theorem Entries.toMatrix_place_mulVec (apart : Function.Injective row)
    (es : List (Entry α p q)) (v : Fin n → α) (i : Fin p)
    : (toMatrix (es.map (Entry.place row col)) *ᵥ v) (row i) = (toMatrix es *ᵥ (v ∘ col)) i := by
  induction es with
  | nil => simp
  | cons e es ih =>
      simp only [List.map_cons, toMatrix_cons, Matrix.add_mulVec, Pi.add_apply, ih]
      congr 1
      rw [Entry.toMatrix, Entry.toMatrix, Matrix.single_mulVec, Matrix.single_mulVec]
      by_cases h : i = e.row
      · subst h
        simp [Entry.place]
      · have moved : row i ≠ row e.row := fun same => h (apart same)
        simp [Entry.place, h, moved]

/-- A placed matrix gives nothing outside the places of its rows. -/
theorem Entries.toMatrix_place_mulVec_other (es : List (Entry α p q)) (v : Fin n → α)
    (k : Fin m) (other : ∀ i, k ≠ row i)
    : (toMatrix (es.map (Entry.place row col)) *ᵥ v) k = 0 := by
  induction es with
  | nil => simp
  | cons e es ih =>
      simp only [List.map_cons, toMatrix_cons, Matrix.add_mulVec, Pi.add_apply, ih]
      rw [Entry.toMatrix, Matrix.single_mulVec, add_zero]
      exact Function.update_of_ne (other e.row) ..

theorem Entries.toMatrix_diagonal (v : Vector α n)
    : toMatrix (Entries.diagonal v) = Matrix.diagonal v.get := by
  rw [← Matrix.sum_single_eq_diagonal, toMatrix, Entries.diagonal, List.map_ofFn, List.sum_ofFn]
  rfl

end Placed

end InteriorPoint
