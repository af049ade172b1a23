import InteriorPoint.Linear.Stored
import InteriorPoint.Proofs.EntryMatrix

/-! The canonical form by columns and its layout in three lists. Rows ascend strictly in each
column, every position that has an entry is stored once, with the sum of its entries, and the
pointers cut the lists into the columns again.
-/

namespace InteriorPoint

variable {α : Type} {m n : Nat}

-----------------------------------------------------------------------------------------
-- Merging keeps the rows and puts them in order
-----------------------------------------------------------------------------------------

namespace Columns

section Merge

variable {ι : Type} [LinearOrder ι] [Add α]

/-- The rows of a column in which a value is inserted: that of the value, and those before. -/
theorem mem_rows_insertRow (i k : ι) (value : α) (column : List (ι × α))
    : i ∈ (insertRow k value column).map Prod.fst ↔ i = k ∨ i ∈ column.map Prod.fst := by
  induction column with
  | nil => simp [insertRow]
  | cons item rest ih =>
      obtain ⟨row, found⟩ := item
      rw [insertRow]
      split
      · simp
      · split
        · next same =>
            subst same
            simp
        · simp only [List.map_cons, List.mem_cons, ih]
          tauto

/-- An ascending column stays so, wherever the value goes. -/
theorem ascending_insertRow (k : ι) (value : α) {column : List (ι × α)}
    (ascending : (column.map Prod.fst).Pairwise (· < ·))
    : ((insertRow k value column).map Prod.fst).Pairwise (· < ·) := by
  induction column with
  | nil => simp [insertRow]
  | cons item rest ih =>
      obtain ⟨row, found⟩ := item
      obtain ⟨above, later⟩ := List.pairwise_cons.mp ascending
      rw [insertRow]
      split
      · next before =>
          refine List.pairwise_cons.mpr ⟨?_, ascending⟩
          intro i member
          rcases List.mem_cons.mp member with rfl | member
          · exact before
          · exact before.trans (above i member)
      · split
        · exact ascending
        · next behind apart =>
            refine List.pairwise_cons.mpr ⟨?_, ih later⟩
            intro i member
            rcases (mem_rows_insertRow i k value rest).mp member with rfl | member
            · exact lt_of_le_of_ne (not_lt.mp behind) (Ne.symm apart)
            · exact above i member

/-- A merged column has the rows that there were, in strictly ascending order; by induction on the
items, with the column merged so far as a start.
-/
theorem mergeColumn_rows (column : List (ι × α))
    : ((mergeColumn column).map Prod.fst).Pairwise (· < ·)
      ∧ ∀ i, i ∈ (mergeColumn column).map Prod.fst ↔ i ∈ column.map Prod.fst := by
  have general (start : List (ι × α)) (ascending : (start.map Prod.fst).Pairwise (· < ·))
      : ((column.foldl (fun sorted item => insertRow item.1 item.2 sorted) start).map
            Prod.fst).Pairwise (· < ·)
        ∧ ∀ i,
            i ∈ (column.foldl (fun sorted item => insertRow item.1 item.2 sorted) start).map
              Prod.fst
            ↔ i ∈ start.map Prod.fst ∨ i ∈ column.map Prod.fst := by
    induction column generalizing start with
    | nil => exact ⟨ascending, by simp⟩
    | cons item rest ih =>
        obtain ⟨sorted, rows⟩ := ih _ (ascending_insertRow item.1 item.2 ascending)
        refine ⟨sorted, fun i => ?_⟩
        rw [List.foldl_cons, rows, mem_rows_insertRow, List.map_cons, List.mem_cons]
        tauto
  obtain ⟨sorted, rows⟩ := general [] List.Pairwise.nil
  exact ⟨sorted, fun i => (rows i).trans (by simp)⟩

end Merge

/-- A column that stores no row twice stores the sum of each of its rows. -/
theorem eq_rowSum_of_mem [Field α] {ι : Type} [DecidableEq ι] {column : List (ι × α)}
    (distinct : (column.map Prod.fst).Nodup) {i : ι} {value : α} (member : (i, value) ∈ column)
    : value = rowSum i column := by
  induction column with
  | nil => cases member
  | cons item rest ih =>
      obtain ⟨absent, distinct⟩ := List.nodup_cons.mp distinct
      rcases List.mem_cons.mp member with rfl | later
      · have none : rowSum i rest = 0 := by
          refine List.sum_eq_zero fun x found => ?_
          obtain ⟨other, among, rfl⟩ := List.mem_map.mp found
          have apart : other.1 ≠ i := by
            rintro rfl
            exact absent (List.mem_map.mpr ⟨other, among, rfl⟩)
          exact if_neg apart
        simpa [rowSum] using none
      · have apart : item.1 ≠ i := fun same => absent (same ▸ List.mem_map_of_mem later)
        rw [ih distinct later]
        simp [rowSum, apart]

/-- The rows of a column in the canonical form of some entries are those of the entries in that
column.
-/
theorem mem_rows_canonical [Add α] (es : List (Entry α m n)) (i : Fin m) (j : Fin n)
    : i ∈ ((canonical es).column.get j).map Prod.fst ↔ ∃ e ∈ es, e.row = i ∧ e.col = j := by
  rw [get_canonical, (mergeColumn_rows _).2]
  simp only [ofEntries, get_eq_getElem, Vector.getElem_ofFn, List.mem_map, List.mem_filterMap]
  constructor
  · rintro ⟨item, ⟨e, member, found⟩, rfl⟩
    split at found
    · next same =>
        obtain rfl := Option.some.inj found
        exact ⟨e, member, rfl, same⟩
    · cases found
  · rintro ⟨e, member, rfl, same⟩
    exact ⟨(e.row, e.value), ⟨e, member, if_pos same⟩, rfl⟩

theorem isCanonical_canonical [Add α] (es : List (Entry α m n))
    : (canonical es).IsCanonical := by
  intro j
  rw [get_canonical]
  exact List.pairwise_map.mp (mergeColumn_rows _).1

/-- What the canonical form stores is the sum of the entries at its position. -/
theorem eq_toMatrix_of_mem [Field α] {es : List (Entry α m n)} {i : Fin m} {j : Fin n} {value : α}
    (member : (i, value) ∈ (canonical es).column.get j)
    : value = Entries.toMatrix es i j := by
  have distinct : (((canonical es).column.get j).map Prod.fst).Nodup :=
    (List.pairwise_map.mpr (isCanonical_canonical es j)).imp fun h => h.ne
  rw [eq_rowSum_of_mem distinct member, ← toMatrix_entries_apply, toMatrix_canonical]

end Columns

-----------------------------------------------------------------------------------------
-- Columns whose rows are numbers
-----------------------------------------------------------------------------------------

namespace Loose

theorem column_ofSparse (columns : Columns α m n) (j : Fin n)
    : (ofSparse ⟨m, n, columns⟩).column.get j
      = (columns.column.get j).map fun item => (Int.ofNat item.1.val, item.2) := by
  simp [ofSparse]

theorem isCanonical_ofSparse {columns : Columns α m n} (h : columns.IsCanonical)
    : (ofSparse ⟨m, n, columns⟩).IsCanonical := by
  intro (j : Fin n)
  rw [column_ofSparse, List.pairwise_map]
  exact (h j).imp fun before => Int.ofNat_lt.mpr before

end Loose

-----------------------------------------------------------------------------------------
-- Columns one after another, and the pointers to where each starts
-----------------------------------------------------------------------------------------

namespace Loose

theorem length_offsets (start : Nat) (lengths : List Nat)
    : (offsets start lengths).length = lengths.length + 1 := by
  induction lengths generalizing start with
  | nil => rfl
  | cons length rest ih => rw [offsets, List.length_cons, ih, List.length_cons]

theorem exists_offsets_eq_cons (start : Nat) (lengths : List Nat)
    : ∃ later, offsets start lengths = start :: later := by
  cases lengths with
  | nil => exact ⟨[], rfl⟩
  | cons length rest => exact ⟨_, rfl⟩

theorem getLast?_offsets (start : Nat) (lengths : List Nat)
    : (offsets start lengths).getLast? = some (start + lengths.sum) := by
  induction lengths generalizing start with
  | nil => rfl
  | cons length rest ih =>
      obtain ⟨later, cons⟩ := exists_offsets_eq_cons (start + length) rest
      have last := ih (start + length)
      rw [cons] at last
      rw [offsets, cons, List.getLast?_cons_cons, last, List.sum_cons, add_assoc]

theorem le_of_mem_offsets {start k : Nat} {lengths : List Nat} (member : k ∈ offsets start lengths)
    : start ≤ k := by
  induction lengths generalizing start with
  | nil => simp_all [offsets]
  | cons length rest ih =>
      rcases List.mem_cons.mp member with rfl | later
      · exact le_rfl
      · exact (Nat.le_add_right start length).trans (ih later)

theorem monotone_offsets (start : Nat) (lengths : List Nat)
    : (offsets start lengths).Pairwise (· ≤ ·) := by
  induction lengths generalizing start with
  | nil => simp [offsets]
  | cons length rest ih =>
      refine List.pairwise_cons.mpr ⟨fun k member => ?_, ih _⟩
      exact (Nat.le_add_right start length).trans (le_of_mem_offsets member)

/-- Pointers to where the parts of a list start cut it into these parts; by induction on the parts,
after whatever lies before them.
-/
theorem runs_offsets {β : Type} (before : List β) (parts : List (List β))
    : runs (before ++ parts.flatten)
        ((offsets before.length (parts.map List.length)).map Int.ofNat)
      = parts := by
  induction parts generalizing before with
  | nil => rfl
  | cons part rest ih =>
      have others := ih (before ++ part)
      obtain ⟨later, cons⟩ :=
        exists_offsets_eq_cons (before.length + part.length) (rest.map List.length)
      rw [List.length_append, cons, List.append_assoc, ← List.flatten_cons] at others
      have found
          : ((before ++ (part :: rest).flatten).drop before.length).take
              (Int.ofNat (before.length + part.length) - Int.ofNat before.length).toNat
            = part := by
        rw [List.drop_left, List.flatten_cons]
        have width
            : (Int.ofNat (before.length + part.length) - Int.ofNat before.length).toNat
              = part.length := by
          simp
        rw [width, List.take_left]
      rw [List.map_cons, offsets, cons]
      exact congrArg₂ List.cons found others

/-- The layout of columns in three lists: pointers from zero on, one more than there are columns,
that do not descend and end at the number of cells, rows and values of equal length, and columns
that are found between their pointers.
-/
structure IsLaidOut (a : Loose α) : Prop where
  pointers_length : a.pointers.length = a.cols + 1
  pointers_head : a.pointers.head? = some 0
  pointers_last : a.pointers.getLast? = some a.count
  pointers_monotone : a.pointers.Pairwise (· ≤ ·)
  indices_length : a.indices.length = a.count
  values_length : a.values.length = a.count
  columns_eq
    : runs (a.indices.zip a.values) (a.pointers.map Int.ofNat) = a.column.toList

theorem isLaidOut (a : Loose α)
    : a.IsLaidOut := by
  have count : (a.column.toList.map List.length).sum = a.count := by
    rw [Loose.count, cells, List.length_flatten]
  have zipped : a.indices.zip a.values = a.cells := by
    simp [indices, values, List.zip_map']
  constructor
  · rw [pointers, length_offsets, List.length_map, Vector.length_toList]
  · obtain ⟨later, cons⟩ := exists_offsets_eq_cons 0 (a.column.toList.map List.length)
    rw [pointers, cons, List.head?_cons]
  · rw [pointers, getLast?_offsets, count, zero_add]
  · exact monotone_offsets _ _
  · exact List.length_map _
  · exact List.length_map _
  · rw [zipped]
    exact runs_offsets [] a.column.toList

end Loose

end InteriorPoint
