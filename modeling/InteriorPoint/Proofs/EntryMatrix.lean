import InteriorPoint.Linear.Columns
import InteriorPoint.Linear.Triplet
import InteriorPoint.Proofs.VectorSums

/-! The matrix that a list of entries stands for. The products run over stored entries only and
the canonical form reorders and merges them; both are read here as statements about that matrix.
-/

namespace InteriorPoint

open scoped Matrix

variable {α : Type} [Field α] {m n : Nat}

/-- The matrix that is zero except at the position of one entry. -/
def Entry.toMatrix (e : Entry α m n) : Matrix (Fin m) (Fin n) α :=
  Matrix.single e.row e.col e.value

/-- A grid as a matrix. -/
def Grid.toMatrix (a : Grid α m n) : Matrix (Fin m) (Fin n) α :=
  Matrix.of a.entry

namespace Entries

/-- The matrix of a list of entries, in which repeated positions add up. -/
def toMatrix (es : List (Entry α m n)) : Matrix (Fin m) (Fin n) α :=
  (es.map Entry.toMatrix).sum

@[simp]
theorem toMatrix_nil
    : toMatrix ([] : List (Entry α m n)) = 0 :=
  rfl

@[simp]
theorem toMatrix_cons (e : Entry α m n) (es : List (Entry α m n))
    : toMatrix (e :: es) = e.toMatrix + toMatrix es := by
  simp [toMatrix]

@[simp]
theorem toMatrix_append (es more : List (Entry α m n))
    : toMatrix (es ++ more) = toMatrix es + toMatrix more := by
  simp [toMatrix]

theorem toMatrix_transpose (es : List (Entry α m n))
    : toMatrix (es.map Entry.transpose) = (toMatrix es)ᵀ := by
  induction es with
  | nil => simp
  | cons e es ih =>
      simp [ih, Entry.toMatrix, Entry.transpose]

/-- Setting one place of a vector to its value and some more adds at that place alone. -/
theorem get_set_add (y : Vector α m) (i : Fin m) (d : α)
    : (y.set i (y.get i + d) i.isLt).get = y.get + Function.update (0 : Fin m → α) i d := by
  funext k
  by_cases h : i = k
  · subst h
    simp
  · have apart : i.val ≠ k.val := fun same => h (Fin.ext same)
    simp [Vector.getElem_set_ne, apart, Function.update_of_ne (Ne.symm h)]

/-- The product of the stored entries with a vector is the matrix product. The induction is on
the entries, with the part that is summed up already as a start.
-/
theorem get_mulVec (es : List (Entry α m n)) (x : Vector α n)
    : (mulVec es x).get = toMatrix es *ᵥ x.get := by
  have general (start : Vector α m)
      : (es.foldl (fun y e => y.set e.row (y[e.row] + e.value * x[e.col])) start).get
        = start.get + toMatrix es *ᵥ x.get := by
    induction es generalizing start with
    | nil => simp
    | cons e es ih =>
        have added
            : (start.set e.row (start[e.row] + e.value * x[e.col])).get
              = start.get + Function.update (0 : Fin m → α) e.row (e.value * x[e.col]) :=
          get_set_add start e.row (e.value * x[e.col])
        rw [List.foldl_cons, ih, added, toMatrix_cons, Matrix.add_mulVec, add_assoc,
          Entry.toMatrix, Matrix.single_mulVec]
        rfl
  rw [mulVec, general, get_replicate]
  exact zero_add _

theorem get_trMulVec (es : List (Entry α m n)) (y : Vector α m)
    : (trMulVec es y).get = (toMatrix es)ᵀ *ᵥ y.get := by
  rw [trMulVec, get_mulVec, toMatrix_transpose]

theorem toMatrix_setEntry (a : Grid α m n) (e : Entry α m n)
    : (a.setEntry e.row e.col (a.entry e.row e.col + e.value)).toMatrix
      = a.toMatrix + e.toMatrix := by
  ext i j
  simp only [Grid.toMatrix, Grid.setEntry, Grid.entry, Entry.toMatrix, Matrix.add_apply,
    Matrix.of_apply, Matrix.single_apply, get_eq_getElem]
  by_cases hi : e.row = i
  · subst hi
    by_cases hj : e.col = j
    · subst hj
      simp
    · have apart : e.col.val ≠ j.val := fun same => hj (Fin.ext same)
      simp [hj, Vector.getElem_set_ne, apart]
  · have apart : e.row.val ≠ i.val := fun same => hi (Fin.ext same)
    simp [hi, Vector.getElem_set_ne, apart]

/-- Filling in every position gives the matrix of the entries, by induction on the entries with
the grid filled so far as a start.
-/
theorem toMatrix_toGrid (es : List (Entry α m n))
    : (toGrid es).toMatrix = toMatrix es := by
  have general (start : Grid α m n)
      : (es.foldl (fun a e => a.setEntry e.row e.col (a.entry e.row e.col + e.value))
          start).toMatrix
        = start.toMatrix + toMatrix es := by
    induction es generalizing start with
    | nil => simp
    | cons e es ih => rw [List.foldl_cons, ih, toMatrix_setEntry, toMatrix_cons, add_assoc]
  have empty : (Grid.ofFn fun _ _ => 0 : Grid α m n).toMatrix = 0 := by
    ext i j
    simp [Grid.toMatrix]
  rw [toGrid, general, empty, zero_add]

end Entries

namespace Columns

/-- What the items of one column add up to in one row. -/
def rowSum {ι : Type} [DecidableEq ι] (i : ι) (column : List (ι × α)) : α :=
  (column.map fun item => if item.1 = i then item.2 else 0).sum

section Merge

variable {ι : Type} [LT ι] [DecidableLT ι] [DecidableEq ι]

/-- Inserting a value adds it in its own row and nowhere else, wherever it ends up. -/
theorem rowSum_insertRow (i k : ι) (value : α) (column : List (ι × α))
    : rowSum i (insertRow k value column) = rowSum i column + if k = i then value else 0 := by
  induction column with
  | nil => simp [insertRow, rowSum]
  | cons item rest ih =>
      obtain ⟨row, found⟩ := item
      rw [insertRow]
      split
      · simp [rowSum, add_comm]
      · split
        · next same =>
            subst same
            by_cases h : k = i <;> simp [rowSum, h]
            ring
        · simp only [rowSum, List.map_cons, List.sum_cons] at ih ⊢
          rw [ih]
          ring

/-- Merging a column keeps every row sum, by induction on its items. -/
theorem rowSum_mergeColumn (i : ι) (column : List (ι × α))
    : rowSum i (mergeColumn column) = rowSum i column := by
  have general (start : List (ι × α))
      : rowSum i (column.foldl (fun sorted item => insertRow item.1 item.2 sorted) start)
        = rowSum i start + rowSum i column := by
    induction column generalizing start with
    | nil => simp [rowSum]
    | cons item rest ih =>
        rw [List.foldl_cons, ih, rowSum_insertRow]
        simp [rowSum]
        ring
  exact (general []).trans (by simp [rowSum])

end Merge

/-- The entries of one column contribute to that column only. -/
theorem toMatrix_column_apply (column : List (Fin m × α)) (k : Fin n) (i : Fin m) (j : Fin n)
    : Entries.toMatrix (column.map fun (row, value) => (⟨row, k, value⟩ : Entry α m n)) i j
      = if k = j then rowSum i column else 0 := by
  induction column with
  | nil => simp [rowSum]
  | cons item rest ih =>
      rw [List.map_cons, Entries.toMatrix_cons, Matrix.add_apply, ih, Entry.toMatrix,
        Matrix.single_apply]
      by_cases h : k = j <;> simp [h, rowSum]

/-- An entry of the matrix of stored columns is a row sum of its column. -/
theorem toMatrix_entries_apply (a : Columns α m n) (i : Fin m) (j : Fin n)
    : Entries.toMatrix a.entries i j = rowSum i (a.column.get j) := by
  have general (order : List (Fin n))
      : Entries.toMatrix
            (order.flatMap fun k => (a.column.get k).map fun (row, value) => ⟨row, k, value⟩) i j
        = (order.map fun k => if k = j then rowSum i (a.column.get k) else 0).sum := by
    induction order with
    | nil => simp
    | cons k order ih =>
        rw [List.flatMap_cons, Entries.toMatrix_append, Matrix.add_apply, ih,
          toMatrix_column_apply, List.map_cons, List.sum_cons]
  rw [entries, general, ← Fin.sum_univ_def]
  simp

/-- Sorting entries into columns keeps what they add up to at each position. -/
theorem rowSum_ofEntries (es : List (Entry α m n)) (i : Fin m) (j : Fin n)
    : rowSum i ((ofEntries es).column.get j) = Entries.toMatrix es i j := by
  induction es with
  | nil => simp [ofEntries, rowSum]
  | cons e es ih =>
      rw [Entries.toMatrix_cons, Matrix.add_apply, ← ih, Entry.toMatrix, Matrix.single_apply]
      by_cases h : e.col = j <;> simp [ofEntries, rowSum, h]

omit [Field α] in
/-- A column of the canonical form is what a column of entries is merged to. -/
theorem get_canonical [Add α] (es : List (Entry α m n)) (j : Fin n)
    : (canonical es).column.get j = mergeColumn ((ofEntries es).column.get j) := by
  simp [canonical]

/-- The canonical form stands for the matrix of the entries it was made from. -/
theorem toMatrix_canonical (es : List (Entry α m n))
    : Entries.toMatrix (canonical es).entries = Entries.toMatrix es := by
  ext i j
  rw [toMatrix_entries_apply, get_canonical, rowSum_mergeColumn, rowSum_ofEntries]

/-- The columns of a matrix, with every entry stored. -/
def ofMatrix (a : Matrix (Fin m) (Fin n) α) : Columns α m n :=
  ⟨Vector.ofFn fun j => (List.finRange m).map fun i => (i, a i j)⟩

theorem toMatrix_ofMatrix (a : Matrix (Fin m) (Fin n) α)
    : Entries.toMatrix (ofMatrix a).entries = a := by
  ext i j
  rw [toMatrix_entries_apply, ofMatrix, get_ofFn, rowSum, List.map_map, ← Fin.sum_univ_def]
  simp

end Columns

namespace Triplet

/-- The grid of an assembly is the matrix of its entries. -/
theorem toMatrix_toGrid (t : Triplet α m n)
    : t.toGrid.toMatrix = Entries.toMatrix t.entries := by
  rw [toGrid, Entries.toMatrix_toGrid, toColumns, Columns.toMatrix_canonical]

end Triplet

end InteriorPoint
