import InteriorPoint.Linear.Arrays
import InteriorPoint.Proofs.Assembly
import InteriorPoint.Report.Kind

/-! The calls of an assembly as blocks of cells. Apart from a start every call either does not fit
the shape, and is refused whatever is there, or it appends its block where there is room for it;
the arrays behind an assembly do the same as long as machine words hold the positions.
-/

namespace InteriorPoint

variable {α : Type} {m n : Nat}

/-- The row, the column and the value of an entry, as the caller numbers them. -/
def Entry.cell (e : Entry α m n) : Int × Int × α :=
  (e.row.val, e.col.val, e.value)

/-- A machine word is read as the number that was stored in it exactly if it holds the number. -/
theorem toInt_ofInt_eq_iff {i : Int} (nonnegative : 0 ≤ i)
    : (Int64.ofInt i).toInt = i ↔ i < 2 ^ 63 := by
  constructor
  · intro exact
    rw [← exact]
    exact Int64.toInt_lt _
  · exact Int64.toInt_ofInt_of_le (by omega)

/-- So is a sum in words of some width; otherwise it has wrapped around. -/
theorem IndexWidth.toInt_sum_eq_iff (width : IndexWidth) (i j : Nat)
    : (width.sum i j).toInt = (i + j : Int) ↔ i + j < width.bound := by
  cases width with
  | half =>
      rw [sum, Int32.toInt_toInt64, ← Int32.ofInt_eq_ofNat, ← Int32.ofInt_eq_ofNat,
        ← Int32.ofInt_add, bound]
      constructor
      · intro exact
        have below := Int32.toInt_lt (Int32.ofInt (i + j))
        omega
      · intro fits
        exact Int32.toInt_ofInt_of_le (by omega) (by omega)
  | full =>
      rw [sum, ← Int64.ofInt_eq_ofNat, ← Int64.ofInt_eq_ofNat, ← Int64.ofInt_add,
        toInt_ofInt_eq_iff (by positivity), bound]
      omega

namespace Triplet

namespace Command

/-- The cells that a call asks to be put, in order: one, a run down a diagonal, or a matrix after
its transpose, both beside the leading diagonal.
-/
def cells : Command α → List (Int × Int × α)
  | .start => []
  | .put i j value => [(i, j, value)]
  | .diagonal i j values => values.mapIdx fun k value => (i + k, j + k, value)
  | .matrix a =>
      a.entries.map (fun e => ((e.col.val : Int), (a.cols + e.row.val : Int), e.value))
        ++ a.entries.map fun e => ((a.cols + e.row.val : Int), (e.col.val : Int), e.value)

/-- Whether the block of a call lies inside an `m × n` matrix: the cell, the run of the diagonal
from a position that is not negative, or the two blocks of the matrix as a whole.
-/
def Fits (m n : Nat) : Command α → Prop
  | .start => True
  | .put i j _ => (0 ≤ i ∧ i < m) ∧ 0 ≤ j ∧ j < n
  | .diagonal i j values =>
      (0 ≤ i ∧ i + values.length ≤ m) ∧ 0 ≤ j ∧ j + values.length ≤ n
  | .matrix a => a.rows + a.cols ≤ m ∧ a.rows + a.cols ≤ n

/-- Whether machine words hold the positions of a call: those that it is given, those that a
diagonal runs through, and the rows that a matrix is moved on to, which are sums in the words of the
matrix.
-/
def FitsWords : Command α → Prop
  | .start => True
  | .put i j _ => i < 2 ^ 63 ∧ j < 2 ^ 63
  | .diagonal i j values =>
      (i < 2 ^ 63 ∧ i + values.length ≤ 2 ^ 63) ∧ j < 2 ^ 63 ∧ j + values.length ≤ 2 ^ 63
  | .matrix a => ∀ e ∈ a.entries, a.cols + e.row.val < a.width.bound

/-- A start is the one call that puts nothing and discards what is there. -/
def isStart : Command α → Bool
  | .start => true
  | _ => false

/-- The calls after the last start. -/
def sinceStart (commands : List (Command α)) : List (Command α) :=
  commands.rtakeWhile fun command => !command.isStart

/-- In a matrix with no more than `2 ^ 31` rows and columns they hold the positions of all calls
that fit.
-/
theorem fitsWords_of_fits {command : Command α} (fits : command.Fits m n) (rows : m ≤ 2 ^ 31)
    (cols : n ≤ 2 ^ 31)
    : command.FitsWords := by
  cases command with
  | start => trivial
  | put i j value =>
      simp only [Fits] at fits
      exact ⟨by omega, by omega⟩
  | diagonal i j values =>
      simp only [Fits] at fits
      exact ⟨⟨by omega, by omega⟩, by omega, by omega⟩
  | matrix a =>
      intro e _
      simp only [Fits] at fits
      have wide : 2 ^ 31 ≤ a.width.bound := by
        cases a.width <;> simp [IndexWidth.bound]
      have row := e.row.isLt
      omega

end Command

/-- A call that fits, other than a start, appends a block of entries. -/
theorem exists_block {command : Command α} (ordinary : command.isStart = false)
    (fits : command.Fits m n)
    : ∃ block : List (Entry α m n),
        block.map Entry.cell = command.cells
        ∧ ∀ t : Triplet α m n, t.apply command = t.append block := by
  cases command with
  | start => cases ordinary
  | put i j value =>
      simp only [Command.Fits] at fits
      refine ⟨[⟨⟨i.toNat, by omega⟩, ⟨j.toNat, by omega⟩, value⟩], ?_, fun t => ?_⟩
      · simp [Command.cells, Entry.cell, fits]
      · rw [apply, put, Entry.of?, dif_pos fits]
  | diagonal i j values =>
      simp only [Command.Fits] at fits
      refine ⟨diagonal i.toNat j.toNat values (by omega) (by omega), ?_, fun t => ?_⟩
      · apply List.ext_getElem
        · simp [diagonal, Command.cells]
        · intro k _ _
          simp [diagonal, Command.cells, Entry.cell, fits]
      · rw [apply, putDiagonal, dif_pos fits]
  | matrix a =>
      simp only [Command.Fits] at fits
      refine ⟨crossBlocks a.entries fits.1 fits.2, ?_, fun t => ?_⟩
      · simp [crossBlocks, Command.cells, Entry.cell, Function.comp_def]
      · rw [apply, putWithTranspose, dif_pos fits]

/-- So a call that fits succeeds where there is room for its cells, and puts these at the end. -/
theorem exists_next {t : Triplet α m n} {command : Command α} (fits : command.Fits m n)
    (room : t.count + command.cells.length ≤ t.capacity)
    : ∃ next,
        t.apply command = .ok next
        ∧ next.capacity = t.capacity
        ∧ next.entries.map Entry.cell
          = if command.isStart then [] else t.entries.map Entry.cell ++ command.cells := by
  cases first : command.isStart with
  | true =>
      cases command with
      | start => exact ⟨t.start, rfl, rfl, rfl⟩
      | put | diagonal | matrix => cases first
  | false =>
      obtain ⟨block, cells, appends⟩ := exists_block first fits
      have length : block.length = command.cells.length := by
        rw [← cells, List.length_map]
      refine ⟨_, (appends t).trans (append_eq (by rwa [length])), rfl, ?_⟩
      rw [List.map_append, cells]
      rfl

-----------------------------------------------------------------------------------------
-- What is written over the arrays
-----------------------------------------------------------------------------------------

theorem getElem_overwrite {β : Type} {k : Nat} (v : Vector β k) (start : Nat) (items : List β)
    {i : Nat} (hi : i < k)
    : (overwrite v start items)[i]
      = if h : start ≤ i ∧ i - start < items.length then items[i - start] else v[i] := by
  simp [overwrite]

/-- Two runs of items that are written one after another are one run. -/
theorem overwrite_append {β : Type} {k : Nat} (v : Vector β k) (start : Nat) (items more : List β)
    : overwrite (overwrite v start items) (start + items.length) more
      = overwrite v start (items ++ more) := by
  apply Vector.ext
  intro i hi
  simp only [getElem_overwrite, List.length_append, List.getElem_append]
  by_cases first : start ≤ i ∧ i - start < items.length
  · have early : ¬(start + items.length ≤ i ∧ i - (start + items.length) < more.length) := by omega
    have within : start ≤ i ∧ i - start < items.length + more.length := by omega
    rw [dif_neg early, dif_pos first, dif_pos within, dif_pos first.2]
  · rw [dif_neg first]
    by_cases second : start + items.length ≤ i ∧ i - (start + items.length) < more.length
    · have within : start ≤ i ∧ i - start < items.length + more.length := by omega
      have late : ¬i - start < items.length := by omega
      rw [dif_pos second, dif_pos within, dif_neg late]
      congr 1
      omega
    · have beyond : ¬(start ≤ i ∧ i - start < items.length + more.length) := by omega
      rw [dif_neg second, dif_neg beyond]

/-- What is in use up to the end of a run of items that is written there. -/
theorem take_overwrite {β : Type} {k : Nat} (v : Vector β k) (start : Nat) (items : List β)
    (room : start + items.length ≤ k)
    : (overwrite v start items).toList.take (start + items.length)
      = v.toList.take start ++ items := by
  apply List.ext_getElem
  · simp only [List.length_take, Vector.length_toList, List.length_append]
    omega
  · intro i hi _
    have before : (v.toList.take start).length = start := by
      simp only [List.length_take, Vector.length_toList]
      omega
    simp only [List.length_take, Vector.length_toList] at hi
    simp only [List.getElem_take, Vector.getElem_toList, getElem_overwrite, List.getElem_append,
      before]
    by_cases early : i < start
    · have outside : ¬(start ≤ i ∧ i - start < items.length) := by omega
      rw [dif_neg outside, dif_pos early]
    · have inside : start ≤ i ∧ i - start < items.length := by omega
      rw [dif_pos inside, dif_neg early]

namespace Arrays

/-- Arrays in which some cells are written where the use ended. -/
def stored (b : Arrays α m n) (words : List (Int64 × Int64 × α)) : Arrays α m n where
  capacity := b.capacity
  rows := overwrite b.rows b.position (words.map (·.1))
  cols := overwrite b.cols b.position (words.map (·.2.1))
  values := overwrite b.values b.position (words.map (·.2.2))
  position := b.position + words.length

/-- As many cells are in use as the position says. -/
theorem length_live {b : Arrays α m n} (room : b.position ≤ b.capacity)
    : b.live.length = b.position := by
  simp only [live, List.length_map, List.length_take, List.length_zip, Vector.length_toList]
  omega

/-- Cells that are written where the use ended come after those in use, and what lay there before
does not show.
-/
theorem live_stored (b : Arrays α m n) (words : List (Int64 × Int64 × α))
    (room : b.position + words.length ≤ b.capacity)
    : (b.stored words).live = b.live ++ words.map read := by
  have taken {β : Type} (v : Vector β b.capacity) (item : Int64 × Int64 × α → β)
      : (overwrite v b.position (words.map item)).toList.take (b.position + words.length)
        = v.toList.take b.position ++ words.map item := by
    have whole := take_overwrite v b.position (words.map item) (by simpa using room)
    rwa [List.length_map] at whole
  have length {β : Type} (v : Vector β b.capacity)
      : (v.toList.take b.position).length = b.position := by
    simp only [List.length_take, Vector.length_toList]
    omega
  simp only [live, stored, List.zip_eq_zipWith, List.take_zipWith, taken]
  rw [List.zipWith_append (by simp [length]), List.zipWith_append (by simp [length]),
    List.map_append]
  simp [List.zipWith_map]

end Arrays

-----------------------------------------------------------------------------------------
-- The words that a call writes
-----------------------------------------------------------------------------------------

namespace Command

/-- The cells that a call writes, as machine words, unless it is given a number that is too large
for one.
-/
def words : Command α → Option (List (Int64 × Int64 × α))
  | .start => some []
  | .put i j value =>
      if i < 2 ^ 63 ∧ j < 2 ^ 63 then some [(.ofInt i, .ofInt j, value)] else none
  | .diagonal i j values =>
      if i < 2 ^ 63 ∧ j < 2 ^ 63 then
        some (values.mapIdx fun k value => (.ofInt i + .ofNat k, .ofInt j + .ofNat k, value))
      else none
  | .matrix a =>
      some
        (a.entries.map (fun e => (.ofNat e.col, a.width.sum a.cols e.row, e.value))
          ++ a.entries.map fun e => (a.width.sum a.cols e.row, .ofNat e.col, e.value))

theorem length_words {command : Command α} {written : List (Int64 × Int64 × α)}
    (h : command.words = some written)
    : written.length = command.cells.length := by
  cases command with
  | start =>
      obtain rfl := Option.some.inj h
      rfl
  | put i j value =>
      rw [words] at h
      split at h
      · obtain rfl := Option.some.inj h
        rfl
      · cases h
  | diagonal i j values =>
      rw [words] at h
      split at h
      · obtain rfl := Option.some.inj h
        simp [cells]
      · cases h
  | matrix a =>
      obtain rfl := Option.some.inj h
      simp [cells]

/-- The words of a call that fits are read as its cells exactly if words hold its positions. -/
theorem read_words_iff {command : Command α} (fits : command.Fits m n)
    : (∃ written, command.words = some written ∧ written.map Arrays.read = command.cells)
      ↔ command.FitsWords := by
  cases command with
  | start => simp [words, cells, FitsWords]
  | put i j value =>
      simp only [Fits] at fits
      have row := toInt_ofInt_eq_iff fits.1.1
      have col := toInt_ofInt_eq_iff fits.2.1
      simp only [words, FitsWords]
      split
      · next small => simp [-Int64.toInt_ofInt, cells, Arrays.read, row, col]
      · next large => simpa using large
  | diagonal i j values =>
      simp only [Fits] at fits
      have read (first : Int) (k : Nat) (nonnegative : 0 ≤ first)
          : (Int64.ofInt first + Int64.ofNat k).toInt = first + k ↔ first + k < 2 ^ 63 := by
        rw [← Int64.ofInt_eq_ofNat, ← Int64.ofInt_add, toInt_ofInt_eq_iff (by positivity)]
      simp only [words, FitsWords]
      split
      · next small =>
          simp only [Option.some.injEq, exists_eq_left', cells]
          rw [List.ext_getElem_iff]
          simp only [List.length_map, List.length_mapIdx, List.getElem_map, List.getElem_mapIdx,
            Arrays.read, Prod.mk.injEq, read _ _ fits.1.1, read _ _ fits.2.1, and_true, true_and,
            small]
          constructor
          · intro all
            rcases Nat.eq_zero_or_pos values.length with none | some
            · omega
            · have last := all (values.length - 1) (by omega) (by omega)
              omega
          · intro ends k _ _
            omega
      · next large =>
          simp only [reduceCtorEq, false_and, exists_false, false_iff]
          exact fun ends => large ⟨ends.1.1, ends.2.1⟩
  | matrix a =>
      have read (e : Entry α a.rows a.cols) : (Int64.ofNat e.col).toInt = e.col.val := by
        have inside := e.col.isLt
        have small := a.cols_lt
        have most : a.width.bound ≤ 2 ^ 63 := by
          cases a.width <;> simp [IndexWidth.bound]
        exact Int64.toInt_ofNat_of_lt (by omega)
      simp only [words, FitsWords, cells, Option.some.injEq, exists_eq_left', List.map_append,
        List.map_map]
      constructor
      · intro same e member
        have second := (List.append_inj same (by simp)).2
        have here := List.map_inj_left.mp second e member
        exact (a.width.toInt_sum_eq_iff _ _).mp (congrArg Prod.fst here)
      · intro small
        congr 1 <;>
        · refine List.map_congr_left fun e member => ?_
          have sum := (a.width.toInt_sum_eq_iff _ _).mpr (small e member)
          simp only [Function.comp_apply, Arrays.read, read, sum]

end Command

-----------------------------------------------------------------------------------------
-- What a call makes of the arrays
-----------------------------------------------------------------------------------------

namespace Filling

/-- A computation whose first step succeeds goes on with the value and the arrays of that step. -/
theorem bind_eq_of_ok {β γ : Type} {x : Filling α m n β} {f : β → Filling α m n γ}
    {b next : Arrays α m n} {value : β} (first : x b = .ok value next)
    : (x >>= f) b = f value next := by
  simp only [bind, EStateM.bind, first]

/-- A computation whose first step fails has failed. -/
theorem bind_eq_of_error {β γ : Type} {x : Filling α m n β} {f : β → Filling α m n γ}
    {b next : Arrays α m n} {fault : Fault} (first : x b = .error fault next)
    : (x >>= f) b = .error fault next := by
  simp only [bind, EStateM.bind, first]

end Filling

namespace Arrays

/-- Arrays in which some more places are taken. -/
def taking (b : Arrays α m n) (count : Nat) : Arrays α m n :=
  { b with position := b.position + count }

theorem reserve_of_room {b : Arrays α m n} {count : Nat} (room : b.position + count ≤ b.capacity)
    : reserve count b = .ok b.position (b.taking count) :=
  if_neg (by omega)

theorem reserve_of_full {b : Arrays α m n} {count : Nat} (full : b.capacity < b.position + count)
    : reserve count b = .error (.full (b.position + count) b.capacity) b :=
  if_pos full

theorem word_of_small {b : Arrays α m n} {i : Int} (small : i < 2 ^ 63)
    : word i b = .ok (.ofInt i) b := by
  rw [word, if_pos (by simpa [IndexWidth.bound] using small)]
  rfl

theorem word_of_large {b : Arrays α m n} {i : Int} (large : ¬i < 2 ^ 63)
    : word i b = .error .tooLarge b := by
  rw [word, if_neg (by simpa [IndexWidth.bound] using large)]
  rfl

/-- A call that fits takes the places of its cells first; without room for them nothing is done. -/
theorem apply_of_full {command : Command α} (ordinary : command.isStart = false)
    (fits : command.Fits m n) {b : Arrays α m n}
    (full : b.capacity < b.position + command.cells.length)
    : apply command b = .error (.full (b.position + command.cells.length) b.capacity) b := by
  cases command with
  | start => cases ordinary
  | put i j value =>
      rw [apply, put, if_pos (by exact fits)]
      exact Filling.bind_eq_of_error (reserve_of_full full)
  | diagonal i j values =>
      simp only [Command.Fits] at fits
      rw [apply, putDiagonal, if_neg (by omega)]
      simp only [Command.cells, List.length_mapIdx] at full ⊢
      exact Filling.bind_eq_of_error (reserve_of_full full)
  | matrix a =>
      simp only [Command.Fits] at fits
      rw [apply, putWithTranspose, if_neg (by omega)]
      have length : (Command.matrix a).cells.length = 2 * a.entries.length := by
        simp [Command.cells, two_mul]
      rw [length] at full ⊢
      exact Filling.bind_eq_of_error (reserve_of_full full)

/-- With room for them it writes its words there, whether in one run or in two. -/
theorem apply_of_words {command : Command α} (ordinary : command.isStart = false)
    (fits : command.Fits m n) {written : List (Int64 × Int64 × α)}
    (words : command.words = some written) {b : Arrays α m n}
    (room : b.position + command.cells.length ≤ b.capacity)
    : apply command b = .ok () (b.stored written) := by
  cases command with
  | start => cases ordinary
  | put i j value =>
      rw [Command.words] at words
      split at words
      · next small =>
          obtain rfl := Option.some.inj words
          rw [apply, put, if_pos (by exact fits)]
          refine (Filling.bind_eq_of_ok (reserve_of_room room)).trans ?_
          refine (Filling.bind_eq_of_ok (word_of_small small.1)).trans ?_
          refine (Filling.bind_eq_of_ok rfl).trans ?_
          exact Filling.bind_eq_of_ok (word_of_small small.2)
      · cases words
  | diagonal i j values =>
      rw [Command.words] at words
      split at words
      · next small =>
          obtain rfl := Option.some.inj words
          simp only [Command.Fits] at fits
          simp only [Command.cells, List.length_mapIdx] at room
          rw [apply, putDiagonal, if_neg (by omega)]
          refine (Filling.bind_eq_of_ok (reserve_of_room room)).trans ?_
          refine (Filling.bind_eq_of_ok (word_of_small small.1)).trans ?_
          refine (Filling.bind_eq_of_ok rfl).trans ?_
          refine (Filling.bind_eq_of_ok (word_of_small small.2)).trans ?_
          let row (k : Nat) := Int64.ofInt i + Int64.ofNat k
          let col (k : Nat) := Int64.ofInt j + Int64.ofNat k
          have rows
              : (values.mapIdx fun k value => (row k, col k, value)).map (·.1)
                = ((List.range values.length).map Int64.ofNat).map (.ofInt i + ·) := by
            apply List.ext_getElem <;> simp [row]
          have cols
              : (values.mapIdx fun k value => (row k, col k, value)).map (·.2.1)
                = ((List.range values.length).map Int64.ofNat).map (.ofInt j + ·) := by
            apply List.ext_getElem <;> simp [col]
          have same
              : (values.mapIdx fun k value => (row k, col k, value)).map (·.2.2) = values := by
            apply List.ext_getElem <;> simp
          rw [stored, rows, cols, same, List.length_mapIdx]
          rfl
      · cases words
  | matrix a =>
      obtain rfl := Option.some.inj words
      simp only [Command.Fits] at fits
      have length : (Command.matrix a).cells.length = 2 * a.entries.length := by
        simp [Command.cells, two_mul]
      rw [length] at room
      rw [apply, putWithTranspose, if_neg (by omega)]
      refine (Filling.bind_eq_of_ok (reserve_of_room room)).trans ?_
      have halves {β : Type} (v : Vector β b.capacity) (f g : Entry α a.rows a.cols → β)
          : overwrite (overwrite v b.position (a.entries.map f)) (b.position + a.entries.length)
              (a.entries.map g)
            = overwrite v b.position (a.entries.map f ++ a.entries.map g) := by
        have whole := overwrite_append v b.position (a.entries.map f) (a.entries.map g)
        rwa [List.length_map] at whole
      simp only [stored, List.map_append, List.map_map, List.length_append, List.length_map,
        ← two_mul, Function.comp_def, ← halves]
      rfl

/-- One of two numbers is too large for a word. If it is the second, what the word of the first is
for has been done, which is to leave capacity and position.
-/
theorem words_of_tooLarge {i j : Int} (large : ¬(i < 2 ^ 63 ∧ j < 2 ^ 63))
    (write rest : Int64 → Filling α m n Unit) (b : Arrays α m n)
    (writes
      : ∀ row,
          ∃ after,
            write row b = .ok () after
            ∧ after.capacity = b.capacity
            ∧ after.position = b.position)
    : ∃ after,
        (word i >>= fun row => write row >>= fun _ => word j >>= rest) b = .error .tooLarge after
        ∧ after.capacity = b.capacity
        ∧ after.position = b.position := by
  by_cases small : i < 2 ^ 63
  · obtain ⟨after, wrote, leaves⟩ := writes (.ofInt i)
    have second : ¬j < 2 ^ 63 := fun other => large ⟨small, other⟩
    refine ⟨after, ?_, leaves⟩
    rw [Filling.bind_eq_of_ok (word_of_small small), Filling.bind_eq_of_ok wrote]
    exact Filling.bind_eq_of_error (word_of_large second)
  · exact ⟨b, Filling.bind_eq_of_error (word_of_large small), rfl, rfl⟩

/-- A number that is too large for a word is found when the places are taken already. -/
theorem apply_of_tooLarge {command : Command α} (fits : command.Fits m n)
    (words : command.words = none) {b : Arrays α m n}
    (room : b.position + command.cells.length ≤ b.capacity)
    : ∃ after,
        apply command b = .error .tooLarge after
        ∧ after.capacity = b.capacity
        ∧ after.position = b.position + command.cells.length := by
  cases command with
  | start => cases words
  | matrix a => cases words
  | put i j value =>
      rw [Command.words] at words
      split at words
      · cases words
      · next large =>
          let write (row : Int64) : Filling α m n Unit := writeRows b.position [row]
          obtain ⟨after, fails, leaves⟩ :=
            words_of_tooLarge large write _ (b.taking 1) fun _ => ⟨_, rfl, rfl, rfl⟩
          refine ⟨after, ?_, leaves⟩
          rw [apply, put, if_pos (by exact fits)]
          exact (Filling.bind_eq_of_ok (reserve_of_room room)).trans fails
  | diagonal i j values =>
      rw [Command.words] at words
      split at words
      · cases words
      · next large =>
          simp only [Command.Fits] at fits
          simp only [Command.cells, List.length_mapIdx] at room ⊢
          let offsets := (List.range values.length).map Int64.ofNat
          let write (row : Int64) : Filling α m n Unit :=
            writeRows b.position (offsets.map (row + ·))
          obtain ⟨after, fails, leaves⟩ :=
            words_of_tooLarge large write _ (b.taking values.length) fun _ => ⟨_, rfl, rfl, rfl⟩
          refine ⟨after, ?_, leaves⟩
          rw [apply, putDiagonal, if_neg (by omega)]
          exact (Filling.bind_eq_of_ok (reserve_of_room room)).trans fails

end Arrays

/-- A call that does not fit is refused for its position, whatever there is. -/
theorem exists_fault {command : Command α} (outside : ¬command.Fits m n)
    : ∃ fault : Fault,
        fault.kind = .index
        ∧ (∀ t : Triplet α m n, t.apply command = .error fault)
        ∧ ∀ b : Arrays α m n, Arrays.apply command b = .error fault b := by
  cases command with
  | start => exact absurd trivial outside
  | put i j value =>
      refine ⟨.entryOutside i j m n, rfl, fun t => ?_, fun b => ?_⟩
      · have none : Entry.of? m n i j value = none := dif_neg outside
        rw [apply, put, none]
      · rw [Arrays.apply, Arrays.put, if_neg (by exact outside)]
        rfl
  | diagonal i j values =>
      refine ⟨.diagonalOutside values.length i j m n, rfl, fun t => dif_neg outside, fun b => ?_⟩
      simp only [Command.Fits] at outside
      rw [Arrays.apply, Arrays.putDiagonal, if_pos (by omega)]
      rfl
  | matrix a =>
      refine ⟨.blocksOutside a.rows a.cols m n, rfl, fun t => dif_neg outside, fun b => ?_⟩
      simp only [Command.Fits] at outside
      rw [Arrays.apply, Arrays.putWithTranspose, if_pos (by omega)]
      rfl

namespace Arrays

/-- Whether a call fits and there is room for its cells. -/
def Admits (b : Arrays α m n) (command : Command α) : Prop :=
  command.Fits m n ∧ b.position + command.cells.length ≤ b.capacity

/-- What a call makes of arrays. Where it is not admitted it is refused and nothing is changed, and
an assembly with as many entries refuses it alike. Otherwise it writes its words, unless it is given
a number that is too large for one; then its places stay taken.
-/
inductive Answer (b : Arrays α m n) (command : Command α) : Prop
  | refused (fault : Fault) (index : fault.kind = .index) (because : ¬b.Admits command)
    (keeps : apply command b = .error fault b)
    (alike
      : ∀ t : Triplet α m n,
          t.capacity = b.capacity → t.count = b.position → t.apply command = .error fault)
  | tooLarge (after : Arrays α m n) (admitted : b.Admits command) (because : command.words = none)
    (fails : apply command b = .error .tooLarge after) (capacity_eq : after.capacity = b.capacity)
    (position_eq : after.position = b.position + command.cells.length)
  | done (after : Arrays α m n) (written : List (Int64 × Int64 × α)) (admitted : b.Admits command)
    (words : command.words = some written) (does : apply command b = .ok () after)
    (capacity_eq : after.capacity = b.capacity)
    (position_eq
      : after.position = if command.isStart then 0 else b.position + command.cells.length)
    (live_eq : after.live = if command.isStart then [] else b.live ++ written.map read)

theorem answer (b : Arrays α m n) (room : b.position ≤ b.capacity) (command : Command α)
    : b.Answer command := by
  cases first : command.isStart with
  | true =>
      cases command with
      | start => exact .done b.start [] ⟨trivial, room⟩ rfl rfl rfl rfl rfl
      | put | diagonal | matrix => cases first
  | false =>
      by_cases fits : command.Fits m n
      · by_cases room : b.position + command.cells.length ≤ b.capacity
        · cases words : command.words with
          | none =>
              obtain ⟨after, fails, capacity, position⟩ := apply_of_tooLarge fits words room
              exact .tooLarge after ⟨fits, room⟩ words fails capacity position
          | some written =>
              have length := Command.length_words words
              refine .done (b.stored written) written ⟨fits, room⟩ words
                (apply_of_words first fits words room) rfl ?_ ?_
              · rw [first, ← length]
                rfl
              · rw [b.live_stored written (by omega), first]
                rfl
        · refine .refused _ rfl (fun admitted => room admitted.2)
            (apply_of_full first fits (not_le.mp room)) fun t capacity count => ?_
          obtain ⟨block, cells, appends⟩ := exists_block first fits
          have length : block.length = command.cells.length := by
            rw [← cells, List.length_map]
          rw [appends, append, if_pos (by omega), length, capacity, count]
      · obtain ⟨fault, index, refuses, keeps⟩ := exists_fault fits
        have not_admitted : ¬b.Admits command := fun admitted => fits admitted.1
        exact .refused fault index not_admitted (keeps b) fun t _ _ => refuses t

/-- The arrays after a call, whether it succeeds or not. -/
def advance (b : Arrays α m n) (command : Command α) : Arrays α m n :=
  match apply command b with
  | .ok _ after => after
  | .error _ after => after

/-- Whether a call succeeds. -/
def accepts (b : Arrays α m n) (command : Command α) : Bool :=
  match apply command b with
  | .ok _ _ => true
  | .error _ _ => false

end Arrays

-----------------------------------------------------------------------------------------
-- Arrays that hold an assembly
-----------------------------------------------------------------------------------------

/-- Arrays hold an assembly: their cells in use are its entries. -/
structure Holds (b : Arrays α m n) (t : Triplet α m n) : Prop where
  capacity_eq : b.capacity = t.capacity
  position_eq : b.position = t.count
  room : t.count ≤ t.capacity
  live_eq : b.live = t.entries.map Entry.cell

/-- What a call makes of an assembly and of arrays that hold it, if words hold its positions: the
same, and its cells are there after it if it succeeds.
-/
structure Kept (b : Arrays α m n) (t : Triplet α m n) (command : Command α) : Prop where
  holds : Holds (b.advance command) (t.advance command)
  accepts_eq : b.accepts command = (t.apply command).isOk
  content_eq
    : (b.advance command).live
      = if b.accepts command then if command.isStart then [] else b.live ++ command.cells
        else b.live

theorem Holds.kept {b : Arrays α m n} {t : Triplet α m n} (h : Holds b t) {command : Command α}
    (words : command.Fits m n → command.FitsWords)
    : Kept b t command := by
  rcases b.answer (h.position_eq.trans_le (h.room.trans_eq h.capacity_eq.symm)) command with
    ⟨fault, _, _, keeps, alike⟩ | ⟨_, admitted, none, _, _, _⟩
    | ⟨after, written, admitted, some, does, capacity, position, live⟩
  · have refuses := alike t h.capacity_eq.symm h.position_eq.symm
    have same : b.advance command = b := by rw [Arrays.advance, keeps]
    have fails : b.accepts command = false := by rw [Arrays.accepts, keeps]
    have unmoved : t.advance command = t := by
      rw [advance, refuses]
      rfl
    constructor
    · rwa [same, unmoved]
    · rw [fails, refuses]
      rfl
    · rw [fails, same]
      rfl
  · obtain ⟨_, other, -⟩ := (Command.read_words_iff admitted.1).mpr (words admitted.1)
    rw [none] at other
    cases other
  · obtain ⟨_, other, cells⟩ := (Command.read_words_iff admitted.1).mpr (words admitted.1)
    obtain rfl := Option.some.inj (some.symm.trans other)
    rw [cells] at live
    have moved : b.advance command = after := by rw [Arrays.advance, does]
    have succeeds : b.accepts command = true := by rw [Arrays.accepts, does]
    obtain ⟨next, makes, keeps, content⟩ := exists_next admitted.1 <| by
      rw [← h.position_eq, ← h.capacity_eq]
      exact admitted.2
    have stepped : t.advance command = next := by
      rw [advance, makes]
      rfl
    have count : after.position = next.count := by
      have length := congrArg List.length content
      rw [List.length_map] at length
      rw [position, count, length]
      split
      · rfl
      · rw [List.length_append, List.length_map, h.position_eq, Triplet.count]
    constructor
    · rw [moved, stepped]
      constructor
      · rw [capacity, keeps, h.capacity_eq]
      · exact count
      · rw [← count, keeps, ← h.capacity_eq, position]
        split
        · exact Nat.zero_le _
        · exact admitted.2
      · rw [live, content, h.live_eq]
    · rw [succeeds, makes]
      rfl
    · rw [succeeds, moved, live]
      rfl

end Triplet

end InteriorPoint
