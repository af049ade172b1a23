import InteriorPoint.Method.Construction
import InteriorPoint.Method.Jacobian
import InteriorPoint.Proofs.CanonicalColumns
import InteriorPoint.Proofs.Denotation
import InteriorPoint.Report.Kind

/-! The canonical form of a matrix, whatever format it is handed over in. Sorting and merging the
rows of a column commutes with naming them anew in the same order and leaves columns alone that
ascend already, so the result is the same for rows that were checked and for rows that were not, and
it does not change when it is brought into canonical form again.
-/

namespace InteriorPoint

variable {α : Type} {m n : Nat}

-----------------------------------------------------------------------------------------
-- Merging renamed rows and rows in order
-----------------------------------------------------------------------------------------

namespace Columns

section Merge

variable {ι κ : Type} [LinearOrder ι] [LinearOrder κ] [Add α]

/-- Rows may get new names in the same order before a value is inserted or after. -/
theorem insertRow_map {name : ι → κ} (strict : StrictMono name) (i : ι) (value : α)
    (column : List (ι × α))
    : insertRow (name i) value (column.map fun item => (name item.1, item.2))
      = (insertRow i value column).map fun item => (name item.1, item.2) := by
  induction column with
  | nil => rfl
  | cons item rest ih =>
      obtain ⟨row, found⟩ := item
      simp only [List.map_cons, insertRow, strict.lt_iff_lt, strict.injective.eq_iff, ih]
      split
      · rfl
      · split <;> rfl

/-- So they may before a column is merged, by induction on its items. -/
theorem mergeColumn_map {name : ι → κ} (strict : StrictMono name) (column : List (ι × α))
    : mergeColumn (column.map fun item => (name item.1, item.2))
      = (mergeColumn column).map fun item => (name item.1, item.2) := by
  have general (start : List (ι × α))
      : (column.map fun item => (name item.1, item.2)).foldl
            (fun sorted item => insertRow item.1 item.2 sorted)
            (start.map fun item => (name item.1, item.2))
        = (column.foldl (fun sorted item => insertRow item.1 item.2 sorted) start).map
            fun item => (name item.1, item.2) := by
    induction column generalizing start with
    | nil => rfl
    | cons item rest ih =>
        rw [List.map_cons, List.foldl_cons, List.foldl_cons, insertRow_map strict, ih]
  exact general []

/-- A row below all others comes last. -/
theorem insertRow_of_forall_lt {i : ι} (value : α) {column : List (ι × α)}
    (above : ∀ k ∈ column.map Prod.fst, k < i)
    : insertRow i value column = column ++ [(i, value)] := by
  induction column with
  | nil => rfl
  | cons item rest ih =>
      obtain ⟨row, found⟩ := item
      have before : row < i := above row (List.mem_cons_self ..)
      rw [insertRow, if_neg before.not_gt, if_neg before.ne', List.cons_append,
        ih fun k later => above k (List.mem_cons_of_mem _ later)]

/-- Items in order are put one after another, by induction on them with those before as a start. -/
theorem foldl_insertRow_of_ascending (start : List (ι × α)) {column : List (ι × α)}
    (ascending : ((start ++ column).map Prod.fst).Pairwise (· < ·))
    : column.foldl (fun sorted item => insertRow item.1 item.2 sorted) start
      = start ++ column := by
  induction column generalizing start with
  | nil => simp
  | cons item rest ih =>
      have above : ∀ k ∈ start.map Prod.fst, k < item.1 := by
        rw [List.map_append, List.pairwise_append] at ascending
        intro k member
        exact ascending.2.2 k member item.1 (List.mem_cons_self ..)
      have onward : start ++ item :: rest = (start ++ [item]) ++ rest := by simp
      rw [onward] at ascending ⊢
      rw [List.foldl_cons, insertRow_of_forall_lt item.2 above]
      exact ih _ ascending

/-- So a column that ascends strictly is merged already. -/
theorem mergeColumn_of_ascending {column : List (ι × α)}
    (ascending : (column.map Prod.fst).Pairwise (· < ·))
    : mergeColumn column = column :=
  foldl_insertRow_of_ascending [] ascending

end Merge

/-- Of the entries of some columns those in one column are its own; by induction on the order in
which the columns come.
-/
theorem filterMap_entries (a : Columns α m n) (j : Fin n) {order : List (Fin n)}
    (distinct : order.Nodup)
    : (order.flatMap fun k => (a.column.get k).map fun (i, value) => ⟨i, k, value⟩).filterMap
          (fun e : Entry α m n => if e.col = j then some (e.row, e.value) else none)
      = if j ∈ order then a.column.get j else [] := by
  induction order with
  | nil => rfl
  | cons k order ih =>
      obtain ⟨absent, distinct⟩ := List.nodup_cons.mp distinct
      rw [List.flatMap_cons, List.filterMap_append, ih distinct, List.filterMap_map]
      by_cases same : k = j
      · subst same
        simp [absent]
      · simp [same, Ne.symm same]

/-- Sorting the entries of columns into columns gives these columns. -/
theorem ofEntries_entries (a : Columns α m n)
    : ofEntries a.entries = a := by
  refine congrArg Columns.mk (vector_ext_get (funext fun j => ?_))
  rw [get_ofFn, entries, a.filterMap_entries j (List.nodup_finRange n),
    if_pos (List.mem_finRange j)]

/-- Columns in canonical form store no more entries than the matrix has positions. -/
theorem IsCanonical.count_le {a : Columns α m n} (h : a.IsCanonical)
    : a.count ≤ m * n := by
  have lengths : ∀ length ∈ (List.finRange n).map fun j => (a.column.get j).length, length ≤ m := by
    intro length member
    obtain ⟨j, -, rfl⟩ := List.mem_map.mp member
    have distinct : ((a.column.get j).map Prod.fst).Nodup :=
      (List.pairwise_map.mpr (h j)).imp fun before => before.ne
    simpa using distinct.length_le_card
  have total := List.sum_le_card_nsmul _ m lengths
  rw [count, entries, List.length_flatMap]
  simpa [mul_comm] using total

end Columns

-----------------------------------------------------------------------------------------
-- Columns whose rows nobody has checked
-----------------------------------------------------------------------------------------

namespace Loose

theorem inside_ofSparse (columns : Columns α m n)
    : ∀ cell ∈ (ofSparse ⟨m, n, columns⟩).cells, 0 ≤ cell.1 ∧ cell.1 < m := by
  intro cell member
  rw [cells, toList_eq_ofFn] at member
  obtain ⟨column, among, member⟩ := List.mem_flatten.mp member
  obtain ⟨j, rfl⟩ := (List.mem_ofFn' ..).mp among
  obtain ⟨item, -, rfl⟩ := List.mem_map.mp ((column_ofSparse columns j) ▸ member)
  exact ⟨Int.natCast_nonneg _, Int.ofNat_lt.mpr item.1.isLt⟩

theorem count_ofSparse (columns : Columns α m n)
    : (ofSparse ⟨m, n, columns⟩).count = columns.count := by
  rw [count, cells, List.length_flatten, Columns.count, Columns.entries, List.length_flatMap,
    toList_eq_ofFn, List.map_ofFn, List.ofFn_eq_map]
  refine congrArg List.sum (List.map_congr_left fun j _ => ?_)
  exact (congrArg List.length (column_ofSparse columns j)).trans (by simp)

/-- Cells that lie inside are found again after their rows were checked. -/
theorem map_filterMap_cell? {column : List (Int × α)}
    (inside : ∀ cell ∈ column, 0 ≤ cell.1 ∧ cell.1 < m)
    : ((column.filterMap (cell? m)).map fun item => (Int.ofNat item.1.val, item.2)) = column := by
  induction column with
  | nil => rfl
  | cons cell rest ih =>
      obtain ⟨row, value⟩ := cell
      have here := inside _ (List.mem_cons_self ..)
      have kept : cell? m (row, value) = some (⟨row.toNat, by omega⟩, value) := by
        simp [cell?, here]
      have same : Int.ofNat row.toNat = row := Int.toNat_of_nonneg here.1
      rw [List.filterMap_cons_some kept, List.map_cons,
        ih fun cell later => inside cell (List.mem_cons_of_mem _ later), same]

theorem get_inside (a : Loose α) (j : Fin a.cols)
    : a.inside.columns.column.get j = (a.column.get j).filterMap (cell? a.rows) := by
  simp [Loose.inside]

/-- If all rows lie inside, it makes no difference whether they are checked before the columns are
brought into canonical form.
-/
theorem canonical_eq_ofSparse [Add α] {a : Loose α} {columns : Columns α a.rows a.cols}
    (inside : a.isInside = true)
    (checked : ∀ j, columns.column.get j = (a.column.get j).filterMap (cell? a.rows))
    : a.canonical = ofSparse ⟨a.rows, a.cols, .canonical columns.entries⟩ := by
  have strict : StrictMono fun i : Fin a.rows => Int.ofNat i.val := fun _ _ before =>
    Int.ofNat_lt.mpr before
  refine congrArg (Loose.mk a.rows a.cols) (vector_ext_get (funext fun j => ?_))
  have cells := map_filterMap_cell? ((MatrixSource.isInside_iff a).mp inside j)
  calc (a.column.map Columns.mergeColumn).get j
      = Columns.mergeColumn (a.column.get j) := by simp
    _ = (Columns.mergeColumn (columns.column.get j)).map
          fun item => (Int.ofNat item.1.val, item.2) := by
        rw [← Columns.mergeColumn_map strict, checked, cells]
    _ = ((Columns.canonical columns.entries).column.get j).map
          fun item => (Int.ofNat item.1.val, item.2) := by
        rw [Columns.get_canonical, Columns.ofEntries_entries]
    _ = (ofSparse ⟨a.rows, a.cols, .canonical columns.entries⟩).column.get j :=
        (column_ofSparse ..).symm

/-- Columns that ascend strictly are in canonical form already. -/
theorem IsCanonical.canonical_eq [Add α] {a : Loose α} (h : a.IsCanonical)
    : a.canonical = a := by
  refine congrArg (Loose.mk a.rows a.cols) (vector_ext_get (funext fun j => ?_))
  have merged
      : (a.column.map Columns.mergeColumn).get j = Columns.mergeColumn (a.column.get j) := by
    simp
  rw [merged, Columns.mergeColumn_of_ascending (List.pairwise_map.mpr (h j))]

end Loose

-----------------------------------------------------------------------------------------
-- The positions that a source stores
-----------------------------------------------------------------------------------------

theorem Columns.mem_entries (a : Columns α m n) (e : Entry α m n)
    : e ∈ a.entries ↔ (e.row, e.value) ∈ a.column.get e.col := by
  simp only [entries, List.mem_flatMap, List.mem_finRange, true_and, List.mem_map]
  constructor
  · rintro ⟨j, item, member, rfl⟩
    exact member
  · intro member
    exact ⟨e.col, _, member, rfl⟩

/-- A cell that lies inside is one with the row that it was given. -/
theorem Loose.mem_filterMap_cell? {column : List (Int × α)} {i : Fin m} {value : α}
    : (i, value) ∈ column.filterMap (cell? m) ↔ (Int.ofNat i.val, value) ∈ column := by
  rw [List.mem_filterMap]
  constructor
  · rintro ⟨⟨row, found⟩, member, kept⟩
    simp only [cell?] at kept
    split at kept
    · next inside =>
        obtain ⟨rfl, rfl⟩ := Prod.mk.inj (Option.some.inj kept)
        have same : Int.ofNat row.toNat = row := Int.toNat_of_nonneg inside.1
        rwa [same]
    · cases kept
  · intro member
    exact ⟨_, member, cell?_natCast i value⟩

namespace MatrixSource

section Stored

variable [Zero α] [LE α] [DecidableLE α] [Add α]

/-- The canonical form of a source that has stored entries is the one of these entries, whether its
rows are checked first or not.
-/
theorem toLoose_of_toStored {source : MatrixSource α} {es : List (Entry α m n)}
    (stored : source.toStored = .ok ⟨m, n, es⟩)
    : source.toLoose = .ok (.ofSparse ⟨m, n, .canonical es⟩) := by
  cases source with
  | nested _ | dense _ | coordinates _ | compressedRows _ =>
      simp only [toLoose, toSparse, stored]
      rfl
  | compressedColumns matrix =>
      simp only [toStored] at stored
      cases inside : matrix.isInside with
      | false => simp [Stored.ofLoose, Loose.sparse?, inside] at stored
      | true =>
          simp only [Stored.ofLoose, Loose.sparse?, inside, if_true] at stored
          cases Except.ok.inj stored
          exact congrArg Except.ok (Loose.canonical_eq_ofSparse inside matrix.get_inside)

end Stored

variable [Field α] [LinearOrder α]

/-- The positions that a source stores: all that are listed if it is a sparse one, and those where
its matrix is not zero if it is dense.
-/
def StoresAt (source : MatrixSource α) (a : Matrix (Fin m) (Fin n) α) (i : Fin m) (j : Fin n)
    : Prop :=
  match source with
  | .nested _ | .dense _ => a i j ≠ 0
  | .coordinates matrix | .compressedRows matrix =>
      ∃ e ∈ matrix.entries, e.row.val = i.val ∧ e.col.val = j.val
  | .compressedColumns matrix =>
      ∃ k : Fin matrix.cols, k.val = j.val ∧ ∃ cell ∈ matrix.column.get k, cell.1 = i.val

/-- The nonzeros of a grid are stored at their positions. -/
theorem exists_nonzero_iff (a : Grid α m n) (i : Fin m) (j : Fin n)
    : (∃ e : Entry α m n, e ∈ (Stored.nonzeros a).entries ∧ e.row = i ∧ e.col = j)
      ↔ a.entry i j ≠ 0 := by
  have nonzero (x : α) : (!isZero x) = true ↔ x ≠ 0 := by
    rw [Bool.not_eq_true', ← Bool.not_eq_true, isZero_iff]
  constructor
  · rintro ⟨e, member, rfl, rfl⟩
    obtain ⟨found, value⟩ := List.mem_filter.mp member
    obtain ⟨k, -, found⟩ := List.mem_flatMap.mp found
    obtain ⟨l, -, rfl⟩ := List.mem_map.mp found
    exact (nonzero _).mp value
  · intro value
    refine ⟨⟨i, j, a.entry i j⟩, List.mem_filter.mpr ⟨?_, (nonzero _).mpr value⟩, rfl, rfl⟩
    exact List.mem_flatMap.mpr ⟨i, List.mem_finRange i,
      List.mem_map.mpr ⟨j, List.mem_finRange j, rfl⟩⟩

/-- An array is stored where its values are not zero. -/
theorem exists_entry_iff_of_ofTensor {t : Tensor α} {es : List (Entry α m n)}
    (stored : ofTensor t = .ok ⟨m, n, es⟩) (i : Fin m) (j : Fin n)
    : (∃ e ∈ es, e.row = i ∧ e.col = j) ↔ Entries.toMatrix es i j ≠ 0 := by
  simp only [ofTensor] at stored
  split at stored
  · next rows cols a _ =>
      cases Except.ok.inj stored
      have value := congrFun (congrFun (toMatrix_nonzeros a) i) j
      exact (exists_nonzero_iff a i j).trans (iff_of_eq (congrArg (· ≠ 0) value.symm))
  · cases stored

omit [Field α] [LinearOrder α] in
/-- The entries of columns that were checked are at the positions of their cells. -/
theorem exists_entry_iff_of_column {column : Vector (List (Int × α)) n} {columns : Columns α m n}
    (checked : ∀ j, columns.column.get j = (column.get j).filterMap (Loose.cell? m)) (i : Fin m)
    (j : Fin n)
    : (∃ e ∈ columns.entries, e.row = i ∧ e.col = j)
      ↔ ∃ k : Fin n, k.val = j.val ∧ ∃ cell ∈ column.get k, cell.1 = i.val := by
  constructor
  · rintro ⟨e, member, rfl, rfl⟩
    rw [Columns.mem_entries, checked, Loose.mem_filterMap_cell?] at member
    exact ⟨e.col, rfl, _, member, rfl⟩
  · rintro ⟨k, same, ⟨row, value⟩, member, rfl⟩
    obtain rfl : k = j := Fin.ext same
    refine ⟨⟨i, k, value⟩, ?_, rfl, rfl⟩
    rw [Columns.mem_entries, checked, Loose.mem_filterMap_cell?]
    exact member

/-- The stored entries of a source are at the positions that it stores. -/
theorem exists_entry_iff {source : MatrixSource α} {es : List (Entry α m n)}
    (stored : source.toStored = .ok ⟨m, n, es⟩) (i : Fin m) (j : Fin n)
    : (∃ e ∈ es, e.row = i ∧ e.col = j) ↔ source.StoresAt (Entries.toMatrix es) i j := by
  cases source with
  | nested values =>
      simp only [toStored] at stored
      cases array : values.tensor with
      | error fault => simp [array, Except.mapError, Except.bind] at stored
      | ok t =>
          simp only [array, Except.mapError, Except.bind] at stored
          exact exists_entry_iff_of_ofTensor stored i j
  | dense t => exact exists_entry_iff_of_ofTensor stored i j
  | coordinates matrix | compressedRows matrix =>
      obtain rfl := Except.ok.inj stored
      simp only [StoresAt, Fin.ext_iff]
  | compressedColumns matrix =>
      simp only [toStored] at stored
      cases inside : matrix.isInside with
      | false => simp [Stored.ofLoose, Loose.sparse?, inside] at stored
      | true =>
          simp only [Stored.ofLoose, Loose.sparse?, inside, if_true] at stored
          cases Except.ok.inj stored
          exact exists_entry_iff_of_column matrix.get_inside i j

/-- The array that a dense source spells out. -/
def Spells : MatrixSource α → Tensor α → Prop
  | .nested values, t => values.tensor = .ok t
  | .dense array, t => array = t
  | _, _ => False

omit [LinearOrder α] in
/-- An array has stored entries if and only if it has two indices. -/
theorem ofTensor_eq_error [LE α] [DecidableLE α] {t : Tensor α} (rank : t.rank ≠ 2)
    : ofTensor t = .error (.dimensions t.rank) := by
  have gridless : t.grid? = none := by
    simp only [Tensor.grid?]
    split
    · next shape => exact absurd (congrArg List.length shape) rank
    · rfl
  rw [ofTensor, gridless]

/-- A source that spells out an array means a matrix if that has two indices, and is refused if not.
-/
theorem Spells.denotes_or_refused {source : MatrixSource α} {t : Tensor α} (h : source.Spells t)
    : (t.rank = 2 → ∃ (m n : Nat) (a : Matrix (Fin m) (Fin n) α), source.Denotes a)
      ∧ (t.rank ≠ 2 → source.toLoose = .error (.dimensions t.rank)) := by
  have stored : source.toStored = ofTensor t := by
    cases source with
    | nested values =>
        have array : values.tensor = .ok t := h
        rw [toStored, array]
        rfl
    | dense array =>
        obtain rfl : array = t := h
        rfl
    | coordinates _ | compressedRows _ | compressedColumns _ => exact h.elim
  constructor
  · intro rank
    obtain ⟨m, n, shape⟩ := List.length_eq_two.mp rank
    obtain ⟨es, entries, -⟩ := ofTensor_lines (m := m) (n := n) t.values
    have array : t = ⟨[m, n], t.values⟩ := by rw [← shape]
    rw [← array] at entries
    exact ⟨m, n, _, denotes_of_toStored (stored.trans entries)⟩
  · intro rank
    rw [ofTensor_eq_error rank] at stored
    cases source with
    | nested _ | dense _ =>
        simp only [toLoose, toSparse, stored]
        rfl
    | coordinates _ | compressedRows _ | compressedColumns _ => exact h.elim

end MatrixSource

-----------------------------------------------------------------------------------------
-- The canonical form of a source
-----------------------------------------------------------------------------------------

/-- A program that is put together has the dimensions of its matrix, and its Jacobian has room for
the matrix twice and three diagonals.
-/
theorem AnyProgram.capacity_of_ok {a : Sparse α} {rightSide cost : List α} {q : AnyProgram α}
    (made : AnyProgram.of a rightSide cost = .ok q)
    : q.rows = a.rows ∧ q.cols = a.cols
      ∧ q.program.emptyJacobian.capacity = 2 * a.columns.count + 3 * a.cols := by
  simp only [AnyProgram.of] at made
  split at made
  · cases made
  · split at made
    · obtain rfl := Except.ok.inj made
      exact ⟨rfl, rfl, rfl⟩
    · cases made

/-- Since the matrix is brought into canonical form before, the room is bounded by the dimensions
alone.
-/
theorem Posed.capacity_le {a : MatrixSource Float} {inside : a.IsInside} {b c : Nested Float}
    {settings : Setting.Value} {posed : Posed} (made : Posed.of a inside b c settings = .ok posed)
    : posed.program.program.emptyJacobian.capacity
      ≤ 2 * (posed.program.rows * posed.program.cols) + 3 * posed.program.cols := by
  obtain ⟨rightSide, -, made⟩ := bind_ok made
  obtain ⟨cost, -, made⟩ := bind_ok made
  change (if _ then _ else _) = _ at made
  split at made
  · cases made
  · obtain ⟨matrix, accepted, made⟩ := bind_ok made
    obtain ⟨stored, -, rfl⟩ := map_ok (mapError_ok accepted)
    obtain ⟨config, -, made⟩ := bind_ok made
    obtain ⟨program, put, made⟩ := bind_ok made
    cases made
    obtain ⟨rows, cols, capacity⟩ := AnyProgram.capacity_of_ok (mapError_ok put)
    have count := (Columns.isCanonical_canonical stored.entries).count_le
    rw [capacity, rows, cols]
    change 2 * (Columns.canonical stored.entries).count + _ ≤ 2 * (stored.rows * stored.cols) + _
    omega

namespace MatrixSource

variable [Field α] [LinearOrder α]

/-- What the canonical form of a source is like that means a matrix: laid out between pointers, with
strictly ascending rows inside the matrix, so that no position is stored twice; it stands for the
matrix, stores the positions that the source stores, and is its own canonical form.
-/
structure IsCanonicalForm (source : MatrixSource α) (a : Matrix (Fin m) (Fin n) α)
    (columns : Columns α m n)
    : Prop where
  laidOut : (Loose.ofSparse ⟨m, n, columns⟩).IsLaidOut
  ascending : (Loose.ofSparse ⟨m, n, columns⟩).IsCanonical
  inside : ∀ i ∈ (Loose.ofSparse ⟨m, n, columns⟩).indices, 0 ≤ i ∧ i < m
  count_le : (Loose.ofSparse ⟨m, n, columns⟩).count ≤ m * n
  means : Entries.toMatrix columns.entries = a
  value_eq : ∀ j, ∀ item ∈ columns.column.get j, item.2 = a item.1 j
  stored_iff : ∀ i j, i ∈ (columns.column.get j).map Prod.fst ↔ source.StoresAt a i j
  again
    : (compressedColumns (Loose.ofSparse ⟨m, n, columns⟩)).toLoose
      = .ok (Loose.ofSparse ⟨m, n, columns⟩)
  capacity_le
    : ∀ rightSide cost q,
        AnyProgram.of ⟨m, n, columns⟩ rightSide cost = .ok q
        → q.program.emptyJacobian.capacity
              = 2 * (Loose.ofSparse ⟨m, n, columns⟩).count + 3 * n
          ∧ q.program.emptyJacobian.capacity ≤ 2 * (m * n) + 3 * n

theorem isCanonicalForm {source : MatrixSource α} {es : List (Entry α m n)}
    (stored : source.toStored = .ok ⟨m, n, es⟩)
    : source.IsCanonicalForm (Entries.toMatrix es) (.canonical es) := by
  have canonical := Columns.isCanonical_canonical es
  have ascending := Loose.isCanonical_ofSparse canonical
  have count := Loose.count_ofSparse (Columns.canonical es)
  exact {
    laidOut := Loose.isLaidOut _
    ascending
    inside := by
      intro i member
      obtain ⟨cell, among, rfl⟩ := List.mem_map.mp member
      exact Loose.inside_ofSparse _ cell among
    count_le := count.trans_le canonical.count_le
    means := Columns.toMatrix_canonical es
    value_eq := fun j item member => Columns.eq_toMatrix_of_mem member
    stored_iff := fun i j =>
      (Columns.mem_rows_canonical es i j).trans (exists_entry_iff stored i j)
    again := congrArg Except.ok ascending.canonical_eq
    capacity_le := fun rightSide cost q made => by
      have bound := canonical.count_le
      obtain ⟨-, -, capacity⟩ := AnyProgram.capacity_of_ok made
      rw [count, capacity]
      change _ = 2 * (Columns.canonical es).count + 3 * n
        ∧ 2 * (Columns.canonical es).count + 3 * n ≤ _
      exact ⟨rfl, by omega⟩
  }

/-- A source that means a matrix has a canonical form, the same for both ways in which it is asked
for. Every dense source with two indices means one; those with more or fewer are refused, and no
refusal is anything but a bad value.
-/
theorem canonicalizes (source : MatrixSource α)
    : (∀ {m n : Nat} (a : Matrix (Fin m) (Fin n) α),
          source.Denotes a
          → ∃ columns : Columns α m n,
              source.toLoose = .ok (.ofSparse ⟨m, n, columns⟩)
              ∧ source.toSparse = .ok ⟨m, n, columns⟩
              ∧ source.IsCanonicalForm a columns)
      ∧ (∀ t,
          source.Spells t
          → (t.rank = 2 → ∃ (m n : Nat) (a : Matrix (Fin m) (Fin n) α), source.Denotes a)
            ∧ (t.rank ≠ 2 → source.toLoose = .error (.dimensions t.rank)))
      ∧ ∀ fault, source.toLoose = .error fault → fault.kind = .value := by
  refine ⟨fun a means => ?_, fun t spells => spells.denotes_or_refused, ?_⟩
  · obtain ⟨es, stored, rfl⟩ := means.toStored
    refine ⟨.canonical es, toLoose_of_toStored stored, ?_, isCanonicalForm stored⟩
    rw [toSparse, stored]
    rfl
  · intro fault refused
    have of_array (t : Tensor α) (unstored : ofTensor t = .error fault) : fault.kind = .value := by
      rw [ofTensor] at unstored
      split at unstored
      · cases unstored
      · cases unstored
        rfl
    cases source with
    | nested values =>
        have unstored
            : values.tensor.mapError StorageFault.nesting >>= ofTensor = .error fault :=
          map_error (map_error refused)
        rcases bind_error unstored with ragged | ⟨t, -, unstored⟩
        · obtain ⟨_, -, rfl⟩ := mapError_error ragged
          rfl
        · exact of_array t unstored
    | dense t => exact of_array t (map_error (map_error refused))
    | coordinates _ | compressedRows _ | compressedColumns _ => cases refused

/-- A sum that cancels and a zero that is stored are kept, beside a third position; and a dense
source with one index is refused.
-/
theorem canonicalizes_sample
    : (∃ (es : List (Entry ℚ 2 2)) (columns : Columns ℚ 2 2),
          es = [⟨0, 1, 1⟩, ⟨1, 0, 0⟩, ⟨0, 1, -1⟩, ⟨1, 1, 2⟩]
          ∧ (coordinates ⟨2, 2, es⟩).toLoose = .ok (.ofSparse ⟨2, 2, columns⟩)
          ∧ (coordinates ⟨2, 2, es⟩).IsCanonicalForm (Entries.toMatrix es) columns
          ∧ columns.column.get 0 = [(1, 0)]
          ∧ columns.column.get 1 = [(0, 0), (1, 2)])
      ∧ (dense ⟨[3], [1, 1, 1]⟩ : MatrixSource ℚ).toLoose = .error (.dimensions 1) := by
  let es : List (Entry ℚ 2 2) := [⟨0, 1, 1⟩, ⟨1, 0, 0⟩, ⟨0, 1, -1⟩, ⟨1, 1, 2⟩]
  obtain ⟨columns, loose, sparse, form⟩ :=
    (canonicalizes (coordinates ⟨2, 2, es⟩)).1 _ (.coordinates es rfl)
  obtain rfl : .canonical es = columns := by
    cases Except.ok.inj sparse
    rfl
  have refused := ((canonicalizes (dense ⟨[3], [1, 1, 1]⟩ : MatrixSource ℚ)).2.1 _ rfl).2
    (by decide)
  exact ⟨⟨es, _, rfl, loose, form, by decide +kernel, by decide +kernel⟩, refused⟩

end MatrixSource

end InteriorPoint
