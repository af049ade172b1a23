import InteriorPoint.Proofs.AssemblyCalls
import InteriorPoint.Proofs.CanonicalColumns

/-! The arrays behind an assembly are a bounded list of cells. Whatever calls are made, failing ones
among them, they hold the cells of those that succeeded since the last start, in order, and nothing
that was put before, and their matrices are the sums of these cells; but only as long as machine
words hold the positions. A position that words do not hold is stored as another one.
-/

namespace InteriorPoint

namespace Triplet

variable {α : Type} {m n : Nat}

-----------------------------------------------------------------------------------------
-- Runs of calls
-----------------------------------------------------------------------------------------

/-- An assembly after some calls. A call that fails leaves it as it was. -/
def run (t : Triplet α m n) (commands : List (Command α)) : Triplet α m n :=
  commands.foldl advance t

namespace Arrays

/-- Arrays after some calls. -/
def run (b : Arrays α m n) (commands : List (Command α)) : Arrays α m n :=
  commands.foldl advance b

/-- Those of some calls that succeed, one after another. -/
def succeeded (b : Arrays α m n) : List (Command α) → List (Command α)
  | [] => []
  | command :: rest =>
      (if b.accepts command then [command] else []) ++ (b.advance command).succeeded rest

theorem run_concat (b : Arrays α m n) (commands : List (Command α)) (command : Command α)
    : b.run (commands ++ [command]) = (b.run commands).advance command := by
  rw [run, List.foldl_concat]
  rfl

theorem succeeded_concat (b : Arrays α m n) (commands : List (Command α)) (command : Command α)
    : b.succeeded (commands ++ [command])
      = b.succeeded commands ++ if (b.run commands).accepts command then [command] else [] := by
  induction commands generalizing b with
  | nil =>
      simp only [List.nil_append, succeeded, List.append_nil]
      rfl
  | cons first rest ih =>
      rw [List.cons_append, succeeded, ih, succeeded, List.append_assoc]
      rfl

/-- Whatever calls are made, the capacity stays and the position does not go beyond it. -/
theorem position_run_le (b : Arrays α m n) (room : b.position ≤ b.capacity)
    (commands : List (Command α))
    : (b.run commands).capacity = b.capacity ∧ (b.run commands).position ≤ b.capacity := by
  induction commands using List.reverseRecOn with
  | nil => exact ⟨rfl, room⟩
  | append_singleton commands command ih =>
      obtain ⟨same, below⟩ := ih
      rw [run_concat, advance]
      rcases (b.run commands).answer (below.trans_eq same.symm) command with
        ⟨_, _, _, keeps, _⟩ | ⟨_, admitted, _, fails, capacity, position⟩
        | ⟨_, _, admitted, _, does, capacity, position, _⟩
      · rw [keeps]
        exact ⟨same, below⟩
      · rw [fails]
        exact ⟨capacity.trans same, position.trans_le (admitted.2.trans_eq same)⟩
      · rw [does]
        refine ⟨capacity.trans same, position.trans_le ?_⟩
        split
        · exact Nat.zero_le _
        · exact admitted.2.trans_eq same

end Arrays

theorem run_concat (t : Triplet α m n) (commands : List (Command α)) (command : Command α)
    : t.run (commands ++ [command]) = (t.run commands).advance command := by
  rw [run, List.foldl_concat]
  rfl

/-- No call changes the capacity. -/
theorem capacity_run (t : Triplet α m n) (commands : List (Command α))
    : (t.run commands).capacity = t.capacity := by
  induction commands using List.reverseRecOn with
  | nil => rfl
  | append_singleton commands command ih =>
      rw [run_concat, ← ih, advance]
      cases done : (t.run commands).apply command with
      | error fault => rfl
      | ok next => exact capacity_apply done

namespace Command

/-- A start is the last call since the last start, and any other call comes after those before. -/
theorem sinceStart_concat (commands : List (Command α)) (command : Command α)
    : sinceStart (commands ++ [command])
      = if command.isStart then [] else sinceStart commands ++ [command] := by
  cases first : command.isStart with
  | true => exact List.rtakeWhile_concat_neg _ _ _ (by simp [first])
  | false => exact List.rtakeWhile_concat_pos _ _ _ (by simp [first])

/-- Whether words hold the positions of all calls since the last start, those that do not fit
apart.
-/
def AllFitWords (m n : Nat) (commands : List (Command α)) : Prop :=
  ∀ command ∈ sinceStart commands, command.Fits m n → command.FitsWords

theorem AllFitWords.before {commands : List (Command α)} {command : Command α}
    (words : AllFitWords m n (commands ++ [command])) (ordinary : command.isStart = false)
    : AllFitWords m n commands ∧ (command.Fits m n → command.FitsWords) := by
  rw [AllFitWords, sinceStart_concat, ordinary] at words
  constructor
  · exact fun other member => words other (List.mem_append_left _ member)
  · exact words command (List.mem_append_right _ (List.mem_singleton_self command))

end Command

/-- As long as words hold the positions, the arrays of an empty assembly hold it after any calls,
and in use are the cells of those that succeeded since the last start; by induction on the calls,
the last one apart.
-/
theorem holds_run [Zero α] (capacity : Nat) (commands : List (Command α))
    (words : Command.AllFitWords m n commands)
    : let fresh : Arrays α m n := .fresh capacity
      Holds (fresh.run commands) ((⟨capacity, []⟩ : Triplet α m n).run commands)
      ∧ (fresh.run commands).live
        = (Command.sinceStart (fresh.succeeded commands)).flatMap Command.cells := by
  intro fresh
  induction commands using List.reverseRecOn with
  | nil => exact ⟨⟨rfl, rfl, Nat.zero_le _, rfl⟩, rfl⟩
  | append_singleton commands command ih =>
      cases first : command.isStart with
      | true =>
          cases command with
          | start =>
              have same := (fresh.position_run_le (Nat.zero_le _) commands).1
              rw [Arrays.run_concat, Arrays.succeeded_concat, run_concat]
              constructor
              · have there := capacity_run (⟨capacity, []⟩ : Triplet α m n) commands
                exact ⟨same.trans there.symm, rfl, Nat.zero_le _, rfl⟩
              · have accepted : (fresh.run commands).accepts Command.start = true := rfl
                rw [accepted, if_pos rfl, Command.sinceStart_concat]
                rfl
          | put | diagonal | matrix => cases first
      | false =>
          obtain ⟨before, fits⟩ := words.before first
          obtain ⟨holds, content⟩ := ih before
          have kept := holds.kept fits
          rw [Arrays.run_concat, Arrays.succeeded_concat, run_concat]
          refine ⟨kept.holds, kept.content_eq.trans ?_⟩
          cases (fresh.run commands).accepts command with
          | false => simpa using content
          | true =>
              rw [if_pos rfl, if_pos rfl, Command.sinceStart_concat, first]
              simp [content]

-----------------------------------------------------------------------------------------
-- The matrices of an assembly
-----------------------------------------------------------------------------------------

/-- What some cells add up to at a position. -/
def sumAt [AddMonoid α] (cells : List (Int × Int × α)) (i j : Int) : α :=
  ((cells.filter fun cell => cell.1 = i ∧ cell.2.1 = j).map (·.2.2)).sum

theorem toMatrix_eq_sumAt [Field α] (es : List (Entry α m n)) (i : Fin m) (j : Fin n)
    : Entries.toMatrix es i j = sumAt (es.map Entry.cell) i.val j.val := by
  induction es with
  | nil => rfl
  | cons e es ih =>
      rw [Entries.toMatrix_cons, Matrix.add_apply, ih, Entry.toMatrix, Matrix.single_apply, sumAt,
        sumAt, List.map_cons]
      by_cases here : e.row = i ∧ e.col = j
      · rw [if_pos here, List.filter_cons_of_pos (by simp [Entry.cell, here]), List.map_cons,
          List.sum_cons]
        rfl
      · rw [if_neg here, List.filter_cons_of_neg (by simpa [Entry.cell, Fin.ext_iff] using here),
          zero_add]

/-- The matrices that add up some cells. Every position of the dense one is the sum of the cells
there. The columns store exactly the positions that have a cell, in strictly ascending rows and with
these sums, and are laid out between pointers.
-/
structure SumsCells [Field α] (cells : List (Int × Int × α)) (columns : Columns α m n)
    : Prop where
  dense
    : ∀ (i : Fin m) (j : Fin n),
        (Sparse.toGrid ⟨m, n, columns⟩).entry i j = sumAt cells i.val j.val
  laidOut : (Loose.ofSparse ⟨m, n, columns⟩).IsLaidOut
  canonical : (Loose.ofSparse ⟨m, n, columns⟩).IsCanonical
  stored_iff
    : ∀ (i : Int) (j : Fin n),
        i ∈ ((Loose.ofSparse ⟨m, n, columns⟩).column.get j).map Prod.fst
        ↔ ∃ value, (i, (j.val : Int), value) ∈ cells
  stored_eq
    : ∀ (j : Fin n),
        ∀ item ∈ (Loose.ofSparse ⟨m, n, columns⟩).column.get j,
          item.2 = sumAt cells item.1 j.val

/-- The matrices of an assembly add up its entries. -/
theorem sumsCells [Field α] (t : Triplet α m n)
    : SumsCells (t.entries.map Entry.cell) t.toColumns := by
  constructor
  · intro i j
    rw [← toMatrix_eq_sumAt, ← toMatrix_toGrid]
    rfl
  · exact Loose.isLaidOut _
  · exact Loose.isCanonical_ofSparse (Columns.isCanonical_canonical t.entries)
  · intro i j
    rw [Loose.column_ofSparse, List.map_map, List.mem_map]
    constructor
    · rintro ⟨item, member, rfl⟩
      obtain ⟨e, found, row, rfl⟩ :=
        (Columns.mem_rows_canonical t.entries item.1 j).mp (List.mem_map_of_mem member)
      refine ⟨e.value, List.mem_map.mpr ⟨e, found, ?_⟩⟩
      simp [Entry.cell, row]
    · rintro ⟨value, member⟩
      obtain ⟨e, found, same⟩ := List.mem_map.mp member
      obtain ⟨rfl, rest⟩ := Prod.mk.inj same
      obtain ⟨col, rfl⟩ := Prod.mk.inj rest
      have here : e.col = j := Fin.ext (Int.ofNat_inj.mp col)
      obtain ⟨item, stored, row⟩ := List.mem_map.mp
        ((Columns.mem_rows_canonical t.entries e.row j).mpr ⟨e, found, rfl, here⟩)
      refine ⟨item, stored, ?_⟩
      rw [← row]
      rfl
  · intro j item member
    rw [Loose.column_ofSparse, List.mem_map] at member
    obtain ⟨stored, member, rfl⟩ := member
    exact (Columns.eq_toMatrix_of_mem member).trans (toMatrix_eq_sumAt ..)

theorem mapM_cell (es : List (Entry α m n))
    : (es.map Entry.cell).mapM (fun (i, j, x) => Entry.of? m n i j x) = some es := by
  induction es with
  | nil => rfl
  | cons e es ih =>
      have inside : Entry.of? m n e.row.val e.col.val e.value = some e := by
        simp [Entry.of?]
      rw [List.map_cons, List.mapM_cons, ih]
      simp only [Entry.cell, inside]
      rfl

/-- Cells that lie inside are entries, whose canonical form the arrays convert to. -/
theorem Holds.toSparse_eq [Add α] {b : Arrays α m n} {t : Triplet α m n} (h : Holds b t)
    (small : m < IndexWidth.full.bound ∧ n < IndexWidth.full.bound)
    : b.toSparse = .ok ⟨m, n, t.toColumns⟩ := by
  rw [Arrays.toSparse, if_pos small, h.live_eq, Stored.ofPositions, mapM_cell]
  rfl

-----------------------------------------------------------------------------------------
-- Arrays as a bounded list
-----------------------------------------------------------------------------------------

/-- What holds of arrays whatever numbers their calls are given. They have a position, up to which
they are in use and which does not go beyond the capacity. A call is refused as a bad index exactly
if its block does not fit or the cells would become too many, and then nothing is changed. A call
that is not refused stores its cells exactly if words hold its positions; and it fails in no other
way than for a number that is too large, with its places taken.
-/
structure IsBounded (capacity : Nat) (b : Arrays α m n) : Prop where
  capacity_eq : b.capacity = capacity
  count_eq : b.live.length = b.position
  bounded : b.position ≤ capacity
  refused_iff
    : ∀ command : Command α,
        (∃ fault after, Arrays.apply command b = .error fault after ∧ fault.kind = .index)
        ↔ ¬(command.Fits m n ∧ b.position + command.cells.length ≤ capacity)
  unchanged
    : ∀ (command : Command α) (fault : Fault) (after : Arrays α m n),
        Arrays.apply command b = .error fault after →
        if fault.kind = .index then after = b
        else fault = .tooLarge ∧ after.position = b.position + command.cells.length
  stores_iff
    : ∀ command : Command α,
        command.Fits m n ∧ b.position + command.cells.length ≤ capacity →
        ((∃ after,
            Arrays.apply command b = .ok () after
            ∧ after.live = if command.isStart then [] else b.live ++ command.cells)
          ↔ command.FitsWords)

/-- Arrays as a list of cells. In use are these cells, all of which lie inside, and the matrices
that the arrays convert to, if words number the rows and columns, add them up.
-/
structure IsList [Field α] (cells : List (Int × Int × α)) (b : Arrays α m n) : Prop where
  live_eq : b.live = cells
  inside : ∀ cell ∈ cells, (0 ≤ cell.1 ∧ cell.1 < m) ∧ 0 ≤ cell.2.1 ∧ cell.2.1 < n
  sums
    : m < IndexWidth.full.bound ∧ n < IndexWidth.full.bound →
      ∃ columns, b.toSparse = .ok ⟨m, n, columns⟩ ∧ SumsCells cells columns

theorem Arrays.isBounded {b : Arrays α m n} (room : b.position ≤ b.capacity)
    : IsBounded b.capacity b := by
  constructor
  · rfl
  · exact b.length_live room
  · exact room
  · intro command
    rcases b.answer room command with ⟨fault, index, because, keeps, _⟩
      | ⟨_, admitted, _, fails, _, _⟩ | ⟨_, _, admitted, _, does, _, _, _⟩
    · exact ⟨fun _ => because, fun _ => ⟨fault, b, keeps, index⟩⟩
    · rw [fails]
      refine ⟨?_, fun because => absurd admitted because⟩
      rintro ⟨fault, after, same, index⟩
      obtain ⟨rfl, -⟩ := EStateM.Result.error.inj same
      cases index
    · rw [does]
      refine ⟨?_, fun because => absurd admitted because⟩
      rintro ⟨fault, after, same, -⟩
      cases same
  · intro command fault after fails
    rcases b.answer room command with ⟨found, index, _, keeps, _⟩
      | ⟨_, _, _, overflows, _, position⟩ | ⟨_, _, _, _, does, _, _, _⟩
    · obtain ⟨rfl, rfl⟩ := EStateM.Result.error.inj (fails.symm.trans keeps)
      exact (if_pos index).mpr rfl
    · obtain ⟨rfl, rfl⟩ := EStateM.Result.error.inj (fails.symm.trans overflows)
      exact ⟨rfl, position⟩
    · rw [does] at fails
      cases fails
  · intro command admitted
    rcases b.answer room command with ⟨_, _, because, _, _⟩
      | ⟨_, _, none, fails, _, _⟩ | ⟨after, written, _, words, does, _, _, live⟩
    · exact absurd admitted because
    · rw [fails, ← Command.read_words_iff admitted.1, none]
      simp
    · rw [does, ← Command.read_words_iff admitted.1, words]
      constructor
      · rintro ⟨_, same, stores⟩
        obtain ⟨-, rfl⟩ := EStateM.Result.ok.inj same
        refine ⟨written, rfl, ?_⟩
        cases first : command.isStart with
        | true =>
            cases command with
            | start => obtain rfl := Option.some.inj words; rfl
            | put | diagonal | matrix => cases first
        | false =>
            rw [live, first] at stores
            exact List.append_cancel_left stores
      · rintro ⟨_, same, cells⟩
        obtain rfl := Option.some.inj same
        exact ⟨after, rfl, by rw [live, cells]⟩

/-- For every shape and capacity, and all calls, failing ones included: new arrays are empty, and
after the calls they are bounded by the capacity. As long as words hold the positions of the calls
since the last start, they are the list of the cells of those that succeeded since then.
-/
theorem run_isBoundedList [Field α] (m n capacity : Nat) (commands : List (Command α))
    : let fresh : Arrays α m n := .fresh capacity
      Arrays.new m n capacity = .ok ⟨m, n, fresh⟩
      ∧ IsBounded capacity (fresh.run commands)
      ∧ (Command.AllFitWords m n commands →
          IsList ((Command.sinceStart (fresh.succeeded commands)).flatMap Command.cells)
            (fresh.run commands)) := by
  intro fresh
  refine ⟨?_, ?_, fun words => ?_⟩
  · simp [Arrays.new, fresh]
  · obtain ⟨same, below⟩ := fresh.position_run_le (Nat.zero_le _) commands
    have bounded := Arrays.isBounded (below.trans_eq same.symm)
    rwa [same] at bounded
  · obtain ⟨holds, content⟩ := holds_run capacity commands words
    rw [← content, holds.live_eq]
    constructor
    · exact holds.live_eq
    · intro cell member
      obtain ⟨e, -, rfl⟩ := List.mem_map.mp member
      simp [Entry.cell]
    · exact fun small => ⟨_, holds.toSparse_eq small, sumsCells _⟩

/-- Calls that fit a small matrix, and one that does not: the start discards the first, the third is
refused, and the diagonal and the matrix are in use after it.
-/
theorem run_isBoundedList_small
    : ((Arrays.fresh 4 : Arrays ℚ 3 3).run
        [.put 0 0 1, .start, .put 3 0 2, .diagonal 1 1 [5, 6],
          .matrix ⟨⟨1, 2, [⟨0, 1, 7⟩]⟩, .half, by decide, by decide⟩]).live
      = [(1, 1, 5), (2, 2, 6), (1, 2, 7), (2, 1, 7)] := by
  have list := (run_isBoundedList 3 3 4
    ([.put 0 0 1, .start, .put 3 0 2, .diagonal 1 1 [5, 6],
      .matrix ⟨⟨1, 2, [⟨0, 1, 7⟩]⟩, .half, by decide, by decide⟩] : List (Command ℚ))).2.2
    fun command _ fits => Command.fitsWords_of_fits fits (by decide) (by decide)
  exact list.live_eq

/-- In a matrix with two rows, and as many columns as words of 32 bits hold, the entry in the second
row is not put where it should be. Its row is moved on to a number that these words do not hold, and
wraps around to one before the first row.
-/
theorem wideMatrix_wraps
    : let wide : Indexed ℚ :=
        ⟨⟨2, 2 ^ 31 - 1, [⟨1, ⟨0, by decide⟩, 5⟩]⟩, .half, by decide, by decide⟩
      let fresh : Arrays ℚ (2 ^ 31 + 1) (2 ^ 31 + 1) := .fresh 2
      (fresh.run [.matrix wide]).live = [(0, -2 ^ 31, 5), (-2 ^ 31, 0, 5)]
      ∧ (Command.sinceStart (fresh.succeeded [.matrix wide])).flatMap Command.cells
        = [(0, 2 ^ 31, 5), (2 ^ 31, 0, 5)] := by
  decide

end Triplet

end InteriorPoint
