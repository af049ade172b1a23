import InteriorPoint.Linear.Columns

/-! Matrices by columns whose rows nobody has checked. Files and callers may name any whole
number as a row; such a matrix has a canonical form all the same, and it is a matrix proper if
all of its rows lie inside.
-/

namespace InteriorPoint

/-- A matrix by columns, with whole numbers for its rows. -/
structure Loose (α : Type) where
  rows : Nat
  cols : Nat
  column : Vector (List (Int × α)) cols

namespace Loose

variable {α : Type}

/-- The rows and values that are stored, from the first column to the last. -/
def cells (a : Loose α) : List (Int × α) :=
  a.column.toList.flatten

/-- How many values are stored. -/
def count (a : Loose α) : Nat :=
  a.cells.length

/-- The running totals of a list of lengths, from zero on. -/
def offsets (start : Nat) : List Nat → List Nat
  | [] => [start]
  | length :: rest => start :: offsets (start + length) rest

/-- Where each column starts among the cells, and where the last one ends. -/
def pointers (a : Loose α) : List Nat :=
  offsets 0 (a.column.toList.map List.length)

/-- The rows of the cells. -/
def indices (a : Loose α) : List Int :=
  a.cells.map (·.1)

/-- The values of the cells. -/
def values (a : Loose α) : List α :=
  a.cells.map (·.2)

/-- In canonical form the rows of every column ascend strictly. -/
def IsCanonical (a : Loose α) : Prop :=
  ∀ j : Fin a.cols, (a.column.get j).Pairwise fun p q => p.1 < q.1

/-- Sorts the rows of every column and adds up those that repeat. -/
def canonical [Add α] (a : Loose α) : Loose α :=
  ⟨a.rows, a.cols, a.column.map Columns.mergeColumn⟩

/-- A cell of a column with `m` rows, if it lies inside. -/
def cell? (m : Nat) (cell : Int × α) : Option (Fin m × α) :=
  if h : 0 ≤ cell.1 ∧ cell.1 < m then some (⟨cell.1.toNat, by omega⟩, cell.2) else none

/-- Forgets that the rows of a matrix lie inside. -/
def ofSparse (a : Sparse α) : Loose α :=
  ⟨a.rows, a.cols, a.columns.column.map (List.map fun (i, value) => (Int.ofNat i.val, value))⟩

/-- The cells that lie inside. -/
def inside (a : Loose α) : Sparse α :=
  ⟨a.rows, a.cols, ⟨a.column.map (List.filterMap (cell? a.rows))⟩⟩

/-- Lets negative rows count back from the last one. -/
def fromEnd (a : Loose α) : Loose α :=
  ⟨a.rows, a.cols,
    a.column.map (List.map fun (i, value) => (if i < 0 then i + a.rows else i, value))⟩

/-- Whether all cells lie inside. -/
def isInside (a : Loose α) : Bool :=
  a.cells.all fun cell => (cell? a.rows cell).isSome

/-- The matrix itself, if all of its cells lie inside. -/
def sparse? (a : Loose α) : Option (Sparse α) :=
  if a.isInside then some a.inside else none

@[simp]
theorem cell?_natCast {m : Nat} (i : Fin m) (value : α)
    : cell? m (Int.ofNat i.val, value) = some (i, value) := by
  simp [cell?]

/-- Nothing is lost when it is forgotten that the rows lie inside. -/
theorem sparse?_ofSparse (a : Sparse α) : (ofSparse a).sparse? = some a := by
  have hin : (ofSparse a).isInside = true := by
    simp only [isInside, cells, ofSparse, List.all_eq_true]
    intro cell h
    obtain ⟨column, hc, hx⟩ := List.mem_flatten.1 h
    rw [Vector.toList_map] at hc
    obtain ⟨inner, -, rfl⟩ := List.mem_map.1 hc
    obtain ⟨⟨i, value⟩, -, rfl⟩ := List.mem_map.1 hx
    rw [cell?_natCast]
    rfl
  have hcells : ∀ column : List (Fin a.rows × α),
      (column.map fun (i, value) => (Int.ofNat i.val, value)).filterMap (cell? a.rows)
        = column := by
    intro column
    induction column with
    | nil => rfl
    | cons cell rest ih =>
        obtain ⟨i, value⟩ := cell
        rw [List.map_cons, List.filterMap_cons_some (cell?_natCast i value), ih]
  rw [sparse?, hin, if_pos rfl]
  obtain ⟨m, n, ⟨column⟩⟩ := a
  simp only [inside, ofSparse, Vector.map_map, Option.some.injEq, Sparse.mk.injEq, heq_eq_eq,
    Columns.mk.injEq, true_and]
  apply Vector.ext
  intro j hj
  rw [Vector.getElem_map]
  exact hcells _

end Loose

end InteriorPoint
