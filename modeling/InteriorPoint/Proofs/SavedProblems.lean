import InteriorPoint.File.Contents
import InteriorPoint.Proofs.CanonicalForm
import InteriorPoint.Proofs.FileTrees

/-! Problems that are saved and loaded again. What is saved is in canonical form, so that nothing
has to be merged when its arrays are cut into columns again, and the problem that is loaded from the
file is the one that was saved, up to what is known of its optimum. The answer of saving is the path
as it was given, which leads to the file only if it has the ending of problem files.
-/

namespace InteriorPoint

variable {α : Type}

-----------------------------------------------------------------------------------------
-- Arrays of canonical columns
-----------------------------------------------------------------------------------------

theorem Loose.isCanonical_canonical [Add α] (a : Loose α)
    : a.canonical.IsCanonical := by
  intro (j : Fin a.cols)
  have merged : a.canonical.column.get j = Columns.mergeColumn (a.column.get j) := by
    simp [Loose.canonical]
  rw [merged]
  exact List.pairwise_map.mp (Columns.mergeColumn_rows _).1

/-- Whatever a matrix is handed over as, its columns are in canonical form. -/
theorem MatrixSource.isCanonical_of_toLoose [Zero α] [LE α] [DecidableLE α] [Add α]
    {source : MatrixSource α} {a : Loose α} (made : source.toLoose = .ok a)
    : a.IsCanonical := by
  have checked (found : source.toSparse.map Loose.ofSparse = .ok a) : a.IsCanonical := by
    obtain ⟨sparse, merged, rfl⟩ := map_ok found
    obtain ⟨stored, -, rfl⟩ := map_ok merged
    exact Loose.isCanonical_ofSparse (Columns.isCanonical_canonical _)
  cases source with
  | compressedColumns matrix =>
      obtain rfl := Except.ok.inj made
      exact matrix.isCanonical_canonical
  | nested _ | dense _ | coordinates _ | compressedRows _ => exact checked made

/-- The arrays of canonical columns pass all checks and are cut into these columns. -/
theorem Loose.ofCompressed_eq [Add α] {a : Loose α} (canonical : a.IsCanonical)
    : ofCompressed a.rows a.cols (a.pointers.map Int.ofNat) a.indices a.values = .ok a := by
  have layout := a.isLaidOut
  have last : (a.pointers.map Int.ofNat).getLast? = some (a.count : Int) := by
    rw [List.getLast?_map, layout.pointers_last]
    rfl
  have pass : checkPointers a.cols (a.pointers.map Int.ofNat) a.indices a.values = .ok () := by
    simp [checkPointers, layout.pointers_length, layout.pointers_head, last, layout.indices_length,
      layout.values_length]
  have columns
      : (⟨a.rows, a.cols, Vector.ofFn fun j =>
          (runs (a.indices.zip a.values) (a.pointers.map Int.ofNat)).toArray.getD j []⟩ : Loose α)
        = a := by
    rw [layout.columns_eq]
    refine congrArg (Loose.mk a.rows a.cols) (vector_ext_get (funext fun j => ?_))
    simp
  have kept : ¬keptCount a.values.length a.count < a.canonical.count := by
    have positive : ¬(a.count : Int) < 0 := by omega
    rw [canonical.canonical_eq, layout.values_length, keptCount, if_neg positive]
    simp
  simp only [ofCompressed, pass, columns, last, Option.getD_some, if_neg kept]
  rfl

-----------------------------------------------------------------------------------------
-- The archive of a problem
-----------------------------------------------------------------------------------------

/-- A text that does not end with a null character is read back unchanged. -/
theorem Archive.readText_eq {text : String} (trimmed : text.toList.getLast? ≠ some '\x00')
    : readText text = text := by
  have kept : text.toList.reverse.dropWhile (· == '\x00') = text.toList.reverse := by
    rw [← List.head?_reverse] at trimmed
    cases letters : text.toList.reverse with
    | nil => rfl
    | cons c rest =>
        have other : ¬c = '\x00' := by
          rintro rfl
          exact trimmed (by rw [letters, List.head?_cons])
        simp [other]
  rw [readText, kept, List.reverse_reverse, String.ofList_toList]

/-- A problem without what is known of its optimum. -/
def Problem.withoutOptimum (p : Problem α) : Problem α :=
  { p with expectedX := none, expectedObjective := none }

/-- A problem whose columns are in canonical form is found in its archive. -/
theorem Archive.problem_ofProblem {p : Problem Float} (canonical : p.matrix.IsCanonical)
    (trimmed : p.name.toList.getLast? ≠ some '\x00') (path : Path)
    : (ofProblem p).problem path = .ok p.withoutOptimum := by
  have shape : shapeOf (.line (p.shape.map Int.ofNat)) = .ok (p.matrix.rows, p.matrix.cols) := by
    simp [shapeOf, Tensor.line, Tensor.rank, Problem.shape]
  have cut
      : matrix (.line p.matrix.values) (.line p.matrix.indices)
          (.line (p.matrix.pointers.map Int.ofNat)) (.line (p.shape.map Int.ofNat))
        = .ok p.matrix := by
    have whole := Loose.ofCompressed_eq canonical
    rw [matrix, shape]
    refine bind_eq_of_ok rfl ?_
    simp only [Tensor.line, whole]
    rfl
  simp only [problem, ofProblem, cut]
  simp [Except.map, readText_eq trimmed, canonical.canonical_eq, Tensor.line,
    Problem.withoutOptimum]

-----------------------------------------------------------------------------------------
-- Saving and loading
-----------------------------------------------------------------------------------------

namespace Problem

variable {p : Problem Float} {path : Path} {tree : FileTree Contents}

/-- The columns of a problem that was made are in canonical form, and its name is the one given. -/
theorem isCanonical_of_make {name : String} {source : MatrixSource Float}
    {rightSide cost : Nested Float} {expectedX : Option (Nested Float)}
    {expectedObjective : Option Float}
    (made : make name source rightSide cost expectedX expectedObjective = .ok p)
    : p.matrix.IsCanonical ∧ p.name = name := by
  obtain ⟨matrix, canonical, made⟩ := bind_ok made
  obtain ⟨_, -, made⟩ := bind_ok made
  obtain ⟨_, -, made⟩ := bind_ok made
  obtain ⟨_, -, made⟩ := bind_ok made
  obtain rfl := Except.ok.inj made
  exact ⟨MatrixSource.isCanonical_of_toLoose canonical, rfl⟩

/-- The file that a problem is saved in under a path. -/
def file (path : Path) : Path :=
  path.withEnding problemEnding

theorem save_eq {made : FileTree Contents} {place : Place}
    (done : tree.makeFolder path.parent = (.ok (), made))
    (found : made.locate (file path).text = .ok place) (free : made.isFolder place = false)
    : p.save path tree = .ok (path, made.overwrite place (.archive (.ofProblem p))) := by
  rw [save, done]
  dsimp only
  rw [← file, FileTree.write_eq found free]
  rfl

/-- Whether a problem is saved depends on tree and path only. -/
theorem exists_save_iff
    : (∃ result, p.save path tree = .ok result) ↔ tree.IsWritable path (file path) := by
  constructor
  · rintro ⟨result, saved⟩
    rw [save] at saved
    split at saved
    · cases saved
    · next made done =>
        obtain ⟨after, written, -⟩ := map_ok saved
        exact ⟨made, done, FileTree.exists_place_of_write written⟩
  · rintro ⟨made, done, place, found, free⟩
    exact ⟨_, save_eq done found free⟩

/-- Loading tells failures apart by length only. -/
theorem load_of_error {cause : FileFault.Cause} (refused : tree.find path.text = .error cause)
    : load path tree
      = .error
          (if cause == .nameTooLong then .system ⟨.nameTooLong, path⟩ else .notFound path) := by
  rw [load, refused]
  cases cause <;> rfl

theorem load_congr {other : FileTree Contents}
    (same
      : (other.find path.text).mapError (· == .nameTooLong)
        = (tree.find path.text).mapError (· == .nameTooLong))
    : load path other = load path tree := by
  cases before : tree.find path.text with
  | error cause =>
      rw [before] at same
      obtain ⟨another, after, equal⟩ := mapError_error same
      rw [load_of_error before, load_of_error after, equal]
  | ok node =>
      rw [before] at same
      rw [load, load, mapError_ok same, before]

/-- What comes of saving a problem under a path. The answer is the path as it was given. The file
holds the problem, up to what is known of its optimum: under the same name, with the same arrays. So
the answer leads to the problem if it has the ending of problem files, and if not, it leads to what
it would lead to if the folders had been made and no file been written.
-/
structure IsSaved (p : Problem Float) (path : Path) (tree after : FileTree Contents) : Prop where
  answer : p.save path tree = .ok (path, after)
  load_file : load (file path) after = .ok p.withoutOptimum
  load_answer : path.text.endsWith problemEnding = true → load path after = .ok p.withoutOptimum
  load_elsewhere
    : path.text.endsWith problemEnding = false
      → load path after = load path (tree.makeFolder path.parent).2

/-- Canonical columns are saved wherever a file can be written. -/
theorem exists_isSaved (canonical : p.matrix.IsCanonical)
    (trimmed : p.name.toList.getLast? ≠ some '\x00') (proper : path.IsProper)
    (writable : tree.IsWritable path (file path))
    : ∃ after, p.IsSaved path tree after := by
  obtain ⟨made, done, place, found, free⟩ := writable
  have loaded
      : load (file path) (made.overwrite place (.archive (.ofProblem p)))
        = .ok p.withoutOptimum := by
    rw [load, FileTree.find_overwrite_self found free]
    dsimp only
    rw [Archive.problem_ofProblem canonical trimmed]
    rfl
  refine ⟨_, {
    answer := save_eq done found free
    load_file := loaded
    load_answer := ?_
    load_elsewhere := ?_
  }⟩
  · intro ends
    rwa [file, Path.withEnding, if_pos ends] at loaded
  · intro ends
    rw [file, Path.withEnding, if_neg (by simp [ends])] at found
    rw [done]
    refine load_congr (FileTree.find_overwrite_of_ne made _ fun there bare => ?_)
    exact FileTree.place_ne_of_append proper (by decide) (by decide) bare found

/-- Without the ending of problem files, a path at which nothing was leads to nothing after a
problem was saved under it, although the path is the answer.
-/
theorem IsSaved.notFound {after : FileTree Contents} (h : p.IsSaved path tree after)
    (plain : FileTree.IsPlain path)
    (clear : tree.IsClear (FileTree.start path.root) path.names.dropLast)
    (absent : tree.node? (FileTree.start path.root ++ path.names) = none)
    (bare : path.text.endsWith problemEnding = false)
    : load path after = .error (.notFound path) := by
  rw [h.load_elsewhere bare, load_of_error (FileTree.find_after_makeFolder plain clear absent)]
  rfl

/-- A file for problems can be written under a path whose text can be one and whose names lead down,
if no file is on the way and no folder in its place.
-/
theorem isWritable_of_isClear (proper : path.IsProper) (plain : FileTree.IsPlain (file path))
    (clear : tree.IsClear (FileTree.start (file path).root) (file path).names.dropLast)
    (free : tree.isFolder (FileTree.start (file path).root ++ (file path).names) = false)
    : tree.IsWritable path (file path) :=
  FileTree.isWritable_of_isClear plain (proper.parent_withEnding (by decide) (by decide)) clear free

/-- In an empty tree that is so under every such path. -/
theorem isWritable_empty (proper : path.IsProper) (plain : FileTree.IsPlain (file path))
    (some : (file path).names ≠ [])
    : FileTree.IsWritable (.empty : FileTree Contents) path (file path) :=
  isWritable_of_isClear proper plain (FileTree.isClear_empty _ _)
    (FileTree.isFolder_empty plain some)

/-- Loading undoes saving, from the file: whatever a problem is made from, and wherever a file can
be written.
-/
theorem load_save {name : String} {source : MatrixSource Float} {rightSide cost : Nested Float}
    {expectedX : Option (Nested Float)} {expectedObjective : Option Float}
    (made : make name source rightSide cost expectedX expectedObjective = .ok p)
    (trimmed : name.toList.getLast? ≠ some '\x00') (text : String)
    (writable : tree.IsWritable (.ofString text) (file (.ofString text)))
    : ∃ after, p.IsSaved (.ofString text) tree after := by
  obtain ⟨canonical, rfl⟩ := isCanonical_of_make made
  exact exists_isSaved canonical trimmed (Path.isProper_ofString text) writable

/-- A zero that is stored, under a path with the ending of problem files. -/
theorem load_save_storedZero
    : ∃ p after,
        make "p" (.compressedColumns ⟨2, 2, #v[[(1, 2), (0, 0)], []]⟩)
            (.list [.number 1, .number 1]) (.list [.number 1, .number 0]) none none
          = .ok p
        ∧ "p".toList.getLast? ≠ some '\x00'
        ∧ FileTree.IsWritable (.empty : FileTree Contents) (.ofString "sub/p.npz")
            (file (.ofString "sub/p.npz"))
        ∧ p.IsSaved (.ofString "sub/p.npz") .empty after
        ∧ p.matrix = ⟨2, 2, #v[[(0, 0), (1, 2)], []]⟩
        ∧ load (.ofString "sub/p.npz") after = .ok p := by
  have writable
      : FileTree.IsWritable (.empty : FileTree Contents) (.ofString "sub/p.npz")
          (file (.ofString "sub/p.npz")) :=
    isWritable_empty (Path.isProper_ofString _) (by decide +kernel) (by decide +kernel)
  have made
      : make "p" (.compressedColumns ⟨2, 2, #v[[(1, 2), (0, 0)], []]⟩)
            (.list [.number 1, .number 1]) (.list [.number 1, .number 0]) none none
          = .ok
              (⟨"p", ⟨2, 2, #v[[(0, 0), (1, 2)], []]⟩, [1, 1], [1, 0], none, none⟩
                : Problem Float) := by
    with_unfolding_all rfl
  obtain ⟨after, saved⟩ := load_save made (by decide) "sub/p.npz" writable
  exact ⟨_, after, made, by decide, writable, saved, rfl, saved.load_answer (by decide +kernel)⟩

/-- A problem without the ending in its path is saved, and the answer leads to nothing. -/
theorem saved_notFound
    : ∃ p after,
        make "lp" (.nested (.list [.list [.number 1, .number 1]])) (.list [.number 1])
            (.list [.number 1, .number 1]) none none
          = .ok p
        ∧ FileTree.IsWritable (.empty : FileTree Contents) (.ofString "lp") (file (.ofString "lp"))
        ∧ p.save (.ofString "lp") .empty = .ok (.ofString "lp", after)
        ∧ load (.ofString "lp") after = .error (.notFound (.ofString "lp"))
        ∧ load (.ofString "lp.npz") after = .ok p := by
  have writable
      : FileTree.IsWritable (.empty : FileTree Contents) (.ofString "lp") (file (.ofString "lp")) :=
    isWritable_empty (Path.isProper_ofString _) (by decide +kernel) (by decide +kernel)
  have made
      : make "lp" (.nested (.list [.list [.number 1, .number 1]])) (.list [.number 1])
            (.list [.number 1, .number 1]) none none
          = .ok
              (⟨"lp", ⟨1, 2, #v[[(0, 1)], [(0, 1)]]⟩, [1], [1, 1], none, none⟩
                : Problem Float) := by
    with_unfolding_all rfl
  obtain ⟨canonical, -⟩ := isCanonical_of_make made
  obtain ⟨after, saved⟩ :=
    exists_isSaved canonical (by decide) (Path.isProper_ofString "lp") writable
  refine ⟨_, after, made, writable, saved.answer, saved.notFound ?_ ?_ ?_ ?_, ?_⟩
  · decide +kernel
  · exact FileTree.isClear_empty _ _
  · decide +kernel
  · decide +kernel
  · have written : Path.ofString "lp.npz" = file (.ofString "lp") := by decide +kernel
    rw [written]
    exact saved.load_file

end Problem

end InteriorPoint
