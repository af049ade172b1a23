import InteriorPoint.Linear.Stored
import InteriorPoint.Proofs.Assembly
import InteriorPoint.Proofs.EntryMatrix

/-! The matrix that a caller means, format by format: rows of numbers, an array read row by row,
coordinates and compressed lines whose repeated positions add up. The sources that are accepted are
the ones that mean a matrix, and their canonical form stands for that matrix.
-/

namespace InteriorPoint

variable {α : Type} {m n : Nat}

-----------------------------------------------------------------------------------------
-- Nested lists
-----------------------------------------------------------------------------------------

namespace Nested

/-- A list of numbers. -/
def line (values : List α) : Nested α :=
  .list (values.map .number)

/-- A list of lines. -/
def lines (rows : List (List α)) : Nested α :=
  .list (rows.map line)

/-- Items that all spell out an array spell them out side by side. -/
theorem tensors?_map {β : Type} {item : β → Nested α} {array : β → Tensor α}
    (spells : ∀ b, (item b).tensor? = some (array b)) (bs : List β)
    : tensors? (bs.map item) = some (bs.map array) := by
  induction bs with
  | nil => rfl
  | cons b bs ih => simp [tensors?, spells b, ih]

/-- If arrays of some kind are spelled out by items of one form only, so are lists of them; by
induction on the items.
-/
theorem exists_map_of_tensors? {β : Type} {item : β → Nested α} {array : β → Tensor α}
    {kind : Tensor α → Prop}
    (form : ∀ (v : Nested α) (t : Tensor α), v.tensor? = some t → kind t →
      ∃ b, v = item b ∧ t = array b)
    {items : List (Nested α)} {ts : List (Tensor α)} (h : tensors? items = some ts)
    (kinds : ∀ t ∈ ts, kind t)
    : ∃ bs : List β, items = bs.map item ∧ ts = bs.map array := by
  induction items generalizing ts with
  | nil =>
      obtain rfl := Option.some.inj h
      exact ⟨[], rfl, rfl⟩
  | cons v items ih =>
      simp only [tensors?, Option.bind_eq_bind, Option.bind_eq_some_iff, Option.pure_def,
        Option.some.injEq] at h
      obtain ⟨t, first, rest, others, rfl⟩ := h
      obtain ⟨b, rfl, rfl⟩ := form v t first (kinds _ (List.mem_cons_self ..))
      obtain ⟨bs, rfl, rfl⟩ := ih others fun t later => kinds t (List.mem_cons_of_mem _ later)
      exact ⟨b :: bs, rfl, rfl⟩

/-- Stacking makes an array with one index more, by the number of arrays that are stacked. -/
theorem stack?_some {ts : List (Tensor α)} {t : Tensor α} (h : Tensor.stack? ts = some t)
    : (ts = [] ∧ t = ⟨[0], []⟩)
      ∨ ∃ shape,
          ts ≠ []
          ∧ (∀ item ∈ ts, item.shape = shape)
          ∧ t = ⟨ts.length :: shape, ts.flatMap (·.values)⟩ := by
  cases ts with
  | nil => exact .inl ⟨rfl, (Option.some.inj h).symm⟩
  | cons first rest =>
      simp only [Tensor.stack?] at h
      split at h
      · next same =>
          refine .inr ⟨first.shape, by simp, ?_, (Option.some.inj h).symm⟩
          simpa using same
      · cases h

/-- Only a number is an array without indices. -/
theorem exists_number_of_tensor? (v : Nested α) (t : Tensor α) (h : v.tensor? = some t)
    (shape : t.shape = [])
    : ∃ x, v = .number x ∧ t = ⟨[], [x]⟩ := by
  cases v with
  | number x => exact ⟨x, rfl, (Option.some.inj h).symm⟩
  | list items =>
      obtain ⟨ts, -, stacked⟩ := Option.bind_eq_some_iff.mp h
      rcases stack?_some stacked with ⟨_, rfl⟩ | ⟨_, _, _, rfl⟩ <;> cases shape

/-- A line is an array with one index. -/
theorem tensor?_line (values : List α)
    : (line values).tensor? = some ⟨[values.length], values⟩ := by
  have spells (x : α) : (number x).tensor? = some ⟨[], [x]⟩ := rfl
  have each := tensors?_map spells values
  rw [line, tensor?, each, Option.bind_some]
  cases values with
  | nil => rfl
  | cons first rest => simp [Tensor.stack?, List.flatMap_map]

/-- Nothing else is. -/
theorem exists_line_of_tensor? (v : Nested α) (t : Tensor α) (h : v.tensor? = some t)
    (shape : t.shape = [n])
    : ∃ values, v = line values ∧ t = ⟨[values.length], values⟩ := by
  cases v with
  | number x =>
      obtain rfl := Option.some.inj h
      cases shape
  | list items =>
      obtain ⟨ts, spelled, stacked⟩ := Option.bind_eq_some_iff.mp h
      rcases stack?_some stacked with ⟨rfl, rfl⟩ | ⟨below, _, shapes, rfl⟩
      · obtain ⟨bs, rfl, none⟩ := exists_map_of_tensors? exists_number_of_tensor? spelled
          (by simp)
        obtain rfl := List.map_eq_nil_iff.mp none.symm
        exact ⟨[], rfl, rfl⟩
      · obtain rfl : below = [] := (List.cons.inj shape).2
        obtain ⟨bs, rfl, rfl⟩ := exists_map_of_tensors? exists_number_of_tensor? spelled shapes
        exact ⟨bs, rfl, by simp [List.flatMap_map]⟩

/-- Lines of one width, at least one of them, are an array with two indices. -/
theorem tensor?_lines {rows : List (List α)} (some_row : rows ≠ [])
    (widths : ∀ row ∈ rows, row.length = n)
    : (lines rows).tensor? = some ⟨[rows.length, n], rows.flatten⟩ := by
  have each := tensors?_map tensor?_line rows
  rw [lines, tensor?, each, Option.bind_some]
  cases rows with
  | nil => exact absurd rfl some_row
  | cons first rest =>
      have width := widths first (List.mem_cons_self ..)
      have others : ∀ row ∈ rest, row.length = n := fun row later =>
        widths row (List.mem_cons_of_mem _ later)
      simpa [Tensor.stack?, List.flatMap_map, width] using others

/-- Nothing else is. -/
theorem exists_lines_of_tensor? {v : Nested α} {t : Tensor α} (h : v.tensor? = some t)
    (shape : t.shape = [m, n])
    : ∃ rows,
        v = lines rows
        ∧ rows ≠ []
        ∧ rows.length = m
        ∧ (∀ row ∈ rows, row.length = n)
        ∧ t.values = rows.flatten := by
  cases v with
  | number x =>
      obtain rfl := Option.some.inj h
      cases shape
  | list items =>
      obtain ⟨ts, spelled, stacked⟩ := Option.bind_eq_some_iff.mp h
      rcases stack?_some stacked with ⟨_, rfl⟩ | ⟨below, nonempty, shapes, rfl⟩
      · cases shape
      · obtain ⟨length, rfl⟩ := List.cons.inj shape
        obtain ⟨rows, rfl, rfl⟩ := exists_map_of_tensors? exists_line_of_tensor? spelled shapes
        refine ⟨rows, rfl, by simpa using nonempty, by simpa using length, ?_, ?_⟩
        · simpa using shapes
        · simp [List.flatMap_map, List.flatMap_id']

end Nested

-----------------------------------------------------------------------------------------
-- The stored entries of a source stand for the matrix that it means
-----------------------------------------------------------------------------------------

/-- Rows of one width that are put one after another are found again, by induction on the rows. -/
theorem getD_flatten {rows : List (List α)} (widths : ∀ row ∈ rows, row.length = n) (zero : α)
    (i : Nat) {j : Nat} (inside : j < n)
    : rows.flatten.getD (i * n + j) zero = (rows.getD i []).getD j zero := by
  induction rows generalizing i with
  | nil => simp
  | cons row rows ih =>
      have width := widths row (List.mem_cons_self ..)
      have later := ih fun row later => widths row (List.mem_cons_of_mem _ later)
      rw [List.flatten_cons]
      cases i with
      | zero =>
          rw [Nat.zero_mul, zero_add, List.getD_append _ _ _ _ (by omega), List.getD_cons_zero]
      | succ i =>
          have moved : (i + 1) * n + j - row.length = i * n + j := by
            rw [Nat.succ_mul, width]
            omega
          have beyond : row.length ≤ (i + 1) * n + j := by
            rw [Nat.succ_mul, width]
            omega
          rw [List.getD_append_right _ _ _ _ beyond, moved, later, List.getD_cons_succ]

namespace Tensor

variable [Zero α]

/-- The values of a line are those of the vector that it was made of. -/
theorem toVector_line (v : Vector α n)
    : (line v.toList).toVector n = v := by
  refine vector_ext_get (funext fun i => ?_)
  simp [line, toVector]

/-- The values of an array with two indices are those of the grid that it was made of. -/
theorem ofFn_values_ofGrid (a : Grid α m n)
    : (Grid.ofFn fun i j => (ofGrid a).values.toArray.getD (i * n + j) 0) = a := by
  have widths : ∀ row ∈ a.toList.map Vector.toList, row.length = n := by
    intro row member
    obtain ⟨v, -, rfl⟩ := List.mem_map.mp member
    exact v.length_toList
  refine Grid.ext_entry fun i j => ?_
  have found := getD_flatten widths 0 i.val j.isLt
  rw [← List.flatMap_def] at found
  rw [Grid.entry_ofFn]
  simpa [ofGrid, Grid.entry, List.getD_eq_getElem?_getD] using found

theorem grid?_ofGrid (a : Grid α m n)
    : (ofGrid a).grid? = some ⟨m, n, a⟩ :=
  congrArg (fun grid => some (⟨m, n, grid⟩ : (m : Nat) × (n : Nat) × Grid α m n))
    (ofFn_values_ofGrid a)

theorem transpose_ofGrid (a : Grid α m n)
    : (ofGrid a).transpose = ofGrid a.transpose := by
  simp only [transpose, grid?_ofGrid]

end Tensor

section Field

variable [Field α]

/-- Lists of entries that are put one after another add up. -/
theorem Entries.toMatrix_flatMap {ι : Type} (order : List ι) (es : ι → List (Entry α m n))
    : toMatrix (order.flatMap es) = (order.map fun k => toMatrix (es k)).sum := by
  induction order with
  | nil => rfl
  | cons k order ih =>
      rw [List.flatMap_cons, toMatrix_append, ih, List.map_cons, List.sum_cons]

/-- All positions of a grid, written out, stand for the grid. -/
theorem toMatrix_ofGrid (a : Grid α m n)
    : Entries.toMatrix (α := α) (m := m) (n := n) (Stored.ofGrid a).entries = a.toMatrix := by
  simp only [Stored.ofGrid]
  rw [Entries.toMatrix_flatMap, ← Fin.sum_univ_def, Matrix.matrix_eq_sum_single a.toMatrix]
  refine Finset.sum_congr rfl fun i _ => ?_
  rw [Entries.toMatrix, List.map_map, ← Fin.sum_univ_def]
  rfl

/-- The rows of a column that lie inside keep their sums, since no other row is asked for. -/
theorem rowSum_inside (i : Fin m) (column : List (Int × α))
    : Columns.rowSum i (column.filterMap (Loose.cell? m))
      = Columns.rowSum (i.val : Int) column := by
  induction column with
  | nil => rfl
  | cons cell rest ih =>
      obtain ⟨row, value⟩ := cell
      by_cases inside : 0 ≤ row ∧ row < m
      · have same : (⟨row.toNat, by omega⟩ : Fin m) = i ↔ row = i.val := by
          simp only [Fin.ext_iff]
          omega
        have kept : Loose.cell? m (row, value) = some (⟨row.toNat, by omega⟩, value) := by
          simp [Loose.cell?, inside]
        rw [List.filterMap_cons_some kept]
        simp only [Columns.rowSum, List.map_cons, List.sum_cons, same] at ih ⊢
        rw [ih]
      · have apart : row ≠ i.val := by omega
        have dropped : Loose.cell? m (row, value) = none := by
          simp only [Loose.cell?, inside, dite_false]
        rw [List.filterMap_cons_none dropped, ih]
        simp [Columns.rowSum, apart]

variable [LinearOrder α]

theorem isZero_iff (x : α)
    : isZero x = true ↔ x = 0 := by
  rw [isZero, Bool.and_eq_true, decide_eq_true_iff, decide_eq_true_iff, le_antisymm_iff]

/-- Zeros that are left out do not change the matrix. -/
theorem toMatrix_nonzeros (a : Grid α m n)
    : Entries.toMatrix (α := α) (m := m) (n := n) (Stored.nonzeros a).entries = a.toMatrix := by
  have kept (es : List (Entry α m n))
      : Entries.toMatrix (es.filter fun e => !isZero e.value) = Entries.toMatrix es := by
    induction es with
    | nil => rfl
    | cons e es ih =>
        cases zero : isZero e.value with
        | true =>
            have vanishes : e.toMatrix = 0 := by
              rw [Entry.toMatrix, (isZero_iff _).mp zero, Matrix.single_zero]
            rw [List.filter_cons_of_neg (by simp [zero]), ih, Entries.toMatrix_cons, vanishes,
              zero_add]
        | false =>
            rw [List.filter_cons_of_pos (by simp [zero]), Entries.toMatrix_cons, ih,
              Entries.toMatrix_cons]
  rw [← toMatrix_ofGrid]
  exact kept (Stored.ofGrid a).entries

namespace MatrixSource

/-- The matrix that a source means, format by format. Compressed columns mean one if all of their
rows lie inside.
-/
inductive Denotes : MatrixSource α → Matrix (Fin m) (Fin n) α → Prop
  | nested {a : Matrix (Fin m) (Fin n) α} (rows : List (List α)) (some_row : rows ≠ [])
    (height : rows.length = m) (widths : ∀ row ∈ rows, row.length = n)
    (entries : ∀ (i : Fin m) (j : Fin n), a i j = (rows.getD i []).getD j 0)
    : Denotes (.nested (.lines rows)) a
  | dense {a : Matrix (Fin m) (Fin n) α} (values : List α)
    (entries : ∀ (i : Fin m) (j : Fin n), a i j = values.getD (i * n + j) 0)
    : Denotes (.dense ⟨[m, n], values⟩) a
  | coordinates {a : Matrix (Fin m) (Fin n) α} (es : List (Entry α m n))
    (sums : a = Entries.toMatrix es)
    : Denotes (.coordinates ⟨m, n, es⟩) a
  | compressedRows {a : Matrix (Fin m) (Fin n) α} (es : List (Entry α m n))
    (sums : a = Entries.toMatrix es)
    : Denotes (.compressedRows ⟨m, n, es⟩) a
  | compressedColumns {a : Matrix (Fin m) (Fin n) α} (column : Vector (List (Int × α)) n)
    (inside : ∀ (j : Fin n), ∀ cell ∈ column.get j, 0 ≤ cell.1 ∧ cell.1 < m)
    (sums : ∀ (i : Fin m) (j : Fin n), a i j = Columns.rowSum (i.val : Int) (column.get j))
    : Denotes (.compressedColumns ⟨m, n, column⟩) a

/-- The entries stored for an array with two indices stand for the array read row by row. -/
theorem ofTensor_lines (values : List α)
    : ∃ es : List (Entry α m n),
        ofTensor ⟨[m, n], values⟩ = .ok ⟨m, n, es⟩
        ∧ ∀ i j, Entries.toMatrix es i j = values.getD (i * n + j) 0 := by
  let a : Grid α m n := Grid.ofFn fun i j => values.toArray.getD (i * n + j) 0
  refine ⟨(Stored.nonzeros a).entries, rfl, fun i j => ?_⟩
  refine (congrFun (congrFun (toMatrix_nonzeros a) i) j).trans ?_
  simp [a, Grid.toMatrix, List.getD_eq_getElem?_getD]

omit [Field α] [LinearOrder α] in
theorem isInside_iff (a : Loose α)
    : a.isInside = true
      ↔ ∀ j : Fin a.cols, ∀ cell ∈ a.column.get j, 0 ≤ cell.1 ∧ cell.1 < a.rows := by
  have found (cell : Int × α)
      : (Loose.cell? a.rows cell).isSome ↔ 0 ≤ cell.1 ∧ cell.1 < a.rows := by
    simp only [Loose.cell?]
    split <;> simp [*]
  simp only [Loose.isInside, Loose.cells, toList_eq_ofFn, List.all_eq_true, List.mem_flatten,
    List.mem_ofFn, found]
  constructor
  · intro all j cell member
    exact all cell ⟨_, ⟨j, rfl⟩, member⟩
  · rintro all cell ⟨_, ⟨j, rfl⟩, member⟩
    exact all j cell member

omit [LinearOrder α] in
/-- Columns whose rows all lie inside are stored as they are. -/
theorem ofLoose_inside {a : Loose α} (inside : a.isInside = true)
    : ∃ es : List (Entry α a.rows a.cols),
        Stored.ofLoose a = .ok ⟨a.rows, a.cols, es⟩
        ∧ ∀ i j, Entries.toMatrix es i j = Columns.rowSum (i.val : Int) (a.column.get j) := by
  refine ⟨a.inside.columns.entries, ?_, fun i j => ?_⟩
  · simp only [Stored.ofLoose, Loose.sparse?, inside, if_true]
    rfl
  · refine (Columns.toMatrix_entries_apply a.inside.columns i j).trans ?_
    rw [← rowSum_inside]
    congr 1
    simp [Loose.inside]

/-- What a source means is what its stored entries stand for. -/
theorem Denotes.toStored {source : MatrixSource α} {a : Matrix (Fin m) (Fin n) α}
    (means : source.Denotes a)
    : ∃ es, source.toStored = .ok ⟨m, n, es⟩ ∧ Entries.toMatrix es = a := by
  cases means with
  | nested rows some_row height widths entries =>
      subst height
      obtain ⟨es, stored, values⟩ := ofTensor_lines (m := rows.length) (n := n) rows.flatten
      have array : (Nested.lines rows).tensor = .ok ⟨[rows.length, n], rows.flatten⟩ := by
        rw [Nested.tensor, Nested.tensor?_lines some_row widths]
        rfl
      refine ⟨es, ?_, ?_⟩
      · rw [toStored, array]
        exact stored
      · ext i j
        rw [values, entries, getD_flatten widths _ _ j.isLt]
  | dense values entries =>
      obtain ⟨es, stored, same⟩ := ofTensor_lines (m := m) (n := n) values
      refine ⟨es, stored, ?_⟩
      ext i j
      rw [same, entries]
  | coordinates es sums => exact ⟨es, rfl, sums.symm⟩
  | compressedRows es sums => exact ⟨es, rfl, sums.symm⟩
  | compressedColumns column inside sums =>
      obtain ⟨es, stored, same⟩ :=
        ofLoose_inside (a := ⟨m, n, column⟩) ((isInside_iff _).mpr inside)
      refine ⟨es, stored, ?_⟩
      ext i j
      rw [same, sums]

omit [Field α] [LinearOrder α] in
theorem tensor?_of_tensor {v : Nested α} {t : Tensor α} (array : v.tensor = .ok t)
    : v.tensor? = some t := by
  simp only [Nested.tensor] at array
  split at array
  · cases array
  · next spelled =>
      split at array
      · cases array
      · rw [spelled, Except.ok.inj array]

/-- An array that has stored entries has two indices, and they stand for its values. -/
theorem lines_of_ofTensor {t : Tensor α} {es : List (Entry α m n)}
    (stored : ofTensor t = .ok ⟨m, n, es⟩)
    : t.shape = [m, n] ∧ ∀ i j, Entries.toMatrix es i j = t.values.getD (i * n + j) 0 := by
  obtain ⟨shape, values⟩ := t
  have lines : shape = [m, n] := by
    simp only [ofTensor, Tensor.grid?] at stored
    split at stored
    · next found =>
        split at found
        · cases stored
          cases found
          rfl
        · cases found
    · cases stored
  subst lines
  obtain ⟨_, same, entries⟩ := ofTensor_lines (m := m) (n := n) values
  cases Except.ok.inj (stored.symm.trans same)
  exact ⟨rfl, entries⟩

/-- Every source that has stored entries means what they stand for. -/
theorem denotes_of_toStored {source : MatrixSource α} {es : List (Entry α m n)}
    (stored : source.toStored = .ok ⟨m, n, es⟩)
    : source.Denotes (Entries.toMatrix es) := by
  cases source with
  | nested values =>
      simp only [toStored] at stored
      cases array : values.tensor with
      | error fault => simp [array, Except.mapError, Except.bind] at stored
      | ok t =>
          simp only [array, Except.mapError, Except.bind] at stored
          obtain ⟨shape, entries⟩ := lines_of_ofTensor stored
          obtain ⟨rows, rfl, some_row, height, widths, items⟩ :=
            Nested.exists_lines_of_tensor? (tensor?_of_tensor array) shape
          refine .nested rows some_row height widths fun i j => ?_
          rw [entries, items, getD_flatten widths _ _ j.isLt]
  | dense t =>
      obtain ⟨shape, entries⟩ := lines_of_ofTensor stored
      obtain ⟨_, values⟩ := t
      obtain rfl : _ = [m, n] := shape
      exact .dense values entries
  | coordinates matrix =>
      obtain rfl := Except.ok.inj stored
      exact .coordinates _ rfl
  | compressedRows matrix =>
      obtain rfl := Except.ok.inj stored
      exact .compressedRows _ rfl
  | compressedColumns matrix =>
      simp only [toStored] at stored
      cases inside : matrix.isInside with
      | false => simp [Stored.ofLoose, Loose.sparse?, inside] at stored
      | true =>
          obtain ⟨_, same, sums⟩ := ofLoose_inside inside
          cases Except.ok.inj (stored.symm.trans same)
          exact .compressedColumns matrix.column ((isInside_iff _).mp inside) sums

/-- The sources that are accepted are those that mean a matrix, and their canonical form stands for
that.
-/
theorem denotes_iff (source : MatrixSource α) (a : Matrix (Fin m) (Fin n) α)
    : source.Denotes a
      ↔ ∃ columns : Columns α m n,
          source.toSparse = .ok ⟨m, n, columns⟩ ∧ Entries.toMatrix columns.entries = a := by
  constructor
  · intro means
    obtain ⟨es, stored, sums⟩ := means.toStored
    refine ⟨.canonical es, ?_, ?_⟩
    · rw [toSparse, stored]
      rfl
    · rw [Columns.toMatrix_canonical, sums]
  · rintro ⟨columns, accepted, rfl⟩
    obtain ⟨⟨rows, cols, es⟩, stored, canonical⟩ := map_ok accepted
    cases canonical
    rw [Columns.toMatrix_canonical]
    exact denotes_of_toStored stored

end MatrixSource

end Field

end InteriorPoint
