import InteriorPoint.File.Path
import Mathlib.Data.List.Infix

/-! Paths and their texts. A text is cut at its slashes, and the pieces with slashes between them
give the text back, so a path that was read reads back from its own text. Whatever is put behind a
text goes to its last piece.
-/

namespace InteriorPoint

namespace Path

-----------------------------------------------------------------------------------------
-- Cutting at slashes
-----------------------------------------------------------------------------------------

theorem splitSlashes_ne_nil (text : List Char)
    : splitSlashes text ≠ [] := by
  cases text with
  | nil => exact List.cons_ne_nil _ _
  | cons c rest =>
      rw [splitSlashes]
      split
      · exact List.cons_ne_nil _ _
      · split <;> exact List.cons_ne_nil _ _

theorem splitSlashes_cons_slash (rest : List Char)
    : splitSlashes ('/' :: rest) = [] :: splitSlashes rest := by
  rw [splitSlashes]
  cases pieces : splitSlashes rest with
  | nil => exact absurd pieces (splitSlashes_ne_nil rest)
  | cons piece others => rfl

/-- A piece reaches to the next slash. -/
theorem splitSlashes_append_slash {piece : List Char} (plain : '/' ∉ piece) (rest : List Char)
    : splitSlashes (piece ++ '/' :: rest) = piece :: splitSlashes rest := by
  induction piece with
  | nil => exact splitSlashes_cons_slash rest
  | cons c piece ih =>
      obtain ⟨apart, plain⟩ := not_or.mp (List.mem_cons.not.mp plain)
      rw [List.cons_append, splitSlashes, ih plain]
      exact if_neg (Ne.symm apart)

theorem splitSlashes_of_plain {piece : List Char} (plain : '/' ∉ piece)
    : splitSlashes piece = [piece] := by
  induction piece with
  | nil => rfl
  | cons c piece ih =>
      obtain ⟨apart, plain⟩ := not_or.mp (List.mem_cons.not.mp plain)
      rw [splitSlashes, ih plain]
      exact if_neg (Ne.symm apart)

/-- What is put behind a text goes to its last piece, by induction on the text. -/
theorem exists_splitSlashes_append {ending : List Char} (plain : '/' ∉ ending) (text : List Char)
    : ∃ before last,
        splitSlashes text = before ++ [last]
        ∧ splitSlashes (text ++ ending) = before ++ [last ++ ending] := by
  induction text with
  | nil => exact ⟨[], [], rfl, splitSlashes_of_plain plain⟩
  | cons c text ih =>
      obtain ⟨before, last, bare, ended⟩ := ih
      by_cases slash : c = '/'
      · subst slash
        refine ⟨[] :: before, last, ?_, ?_⟩
        · rw [splitSlashes_cons_slash, bare, List.cons_append]
        · rw [List.cons_append, splitSlashes_cons_slash, ended, List.cons_append]
      · cases before with
        | nil =>
            refine ⟨[], c :: last, ?_, ?_⟩
            · rw [splitSlashes, bare]
              exact if_neg slash
            · rw [List.cons_append, splitSlashes, ended]
              exact if_neg slash
        | cons piece before =>
            refine ⟨(c :: piece) :: before, last, ?_, ?_⟩
            · rw [splitSlashes, bare]
              exact if_neg slash
            · rw [List.cons_append, splitSlashes, ended]
              exact if_neg slash

theorem plain_of_mem_splitSlashes {piece text : List Char} (member : piece ∈ splitSlashes text)
    : '/' ∉ piece := by
  induction text generalizing piece with
  | nil =>
      obtain rfl := List.mem_singleton.mp member
      exact List.not_mem_nil
  | cons c text ih =>
      by_cases slash : c = '/'
      · subst slash
        rw [splitSlashes_cons_slash] at member
        rcases List.mem_cons.mp member with rfl | later
        · exact List.not_mem_nil
        · exact ih later
      · rw [splitSlashes] at member
        split at member
        · obtain rfl := List.mem_singleton.mp member
          simpa using Ne.symm slash
        · next first others pieces =>
            rw [if_neg slash] at member
            rw [pieces] at ih
            rcases List.mem_cons.mp member with rfl | later
            · exact List.mem_cons.not.mpr (not_or.mpr ⟨Ne.symm slash, ih (List.mem_cons_self ..)⟩)
            · exact ih (List.mem_cons_of_mem _ later)

/-- Pieces with slashes between them are cut again into these pieces. -/
theorem splitSlashes_intercalate {pieces : List (List Char)} (some : pieces ≠ [])
    (plain : ∀ piece ∈ pieces, '/' ∉ piece)
    : splitSlashes (['/'].intercalate pieces) = pieces := by
  induction pieces with
  | nil => exact absurd rfl some
  | cons piece others ih =>
      obtain ⟨here, later⟩ := List.forall_mem_cons.mp plain
      cases others with
      | nil => simpa using splitSlashes_of_plain here
      | cons next others =>
          rw [List.intercalate_cons_cons, List.append_assoc, List.singleton_append,
            splitSlashes_append_slash here, ih (List.cons_ne_nil _ _) later]

-----------------------------------------------------------------------------------------
-- Paths as they are read
-----------------------------------------------------------------------------------------

/-- Only short components are idle. -/
theorem isIdle_of_long {name : String} (long : 1 < name.length)
    : isIdle name = false := by
  rw [isIdle, Bool.or_eq_false_iff, beq_eq_false_iff_ne, beq_eq_false_iff_ne]
  constructor
  · rintro rfl
    cases long
  · rintro rfl
    exact absurd long (by decide)

/-- A path that texts are read as: it starts from the current folder or from a root, and all of its
names lead somewhere.
-/
structure IsProper (p : Path) : Prop where
  root_mem : p.root = "" ∨ p.root = "/" ∨ p.root = "//"
  plain : ∀ name ∈ p.names, '/' ∉ name.toList
  active : ∀ name ∈ p.names, isIdle name = false

instance (p : Path) : Decidable p.IsProper :=
  decidable_of_iff (_ ∧ _ ∧ _)
    ⟨fun ⟨root_mem, plain, active⟩ => ⟨root_mem, plain, active⟩,
      fun h => ⟨h.root_mem, h.plain, h.active⟩⟩

theorem isProper_ofString (text : String)
    : (ofString text).IsProper where
  root_mem := by
    simp only [ofString, rootOf]
    split
    · exact .inl rfl
    · exact .inr (.inr rfl)
    · exact .inr (.inl rfl)
  plain := by
    intro name member
    obtain ⟨piece, among, rfl⟩ := List.mem_map.mp (List.mem_of_mem_filter member)
    rw [String.toList_ofList]
    exact plain_of_mem_splitSlashes among
  active := by
    intro name member
    simpa using List.of_mem_filter member

/-- Without names a path is one of its starts. -/
theorem IsProper.eq_of_names_nil {p : Path} (h : p.IsProper) (none : p.names = [])
    : p = ⟨"", []⟩ ∨ p = ⟨"/", []⟩ ∨ p = ⟨"//", []⟩ := by
  obtain ⟨root, names⟩ := p
  obtain rfl : names = [] := none
  simpa using h.root_mem

theorem text_eq {p : Path} (some : p.names ≠ [])
    : p.text = p.root ++ "/".intercalate p.names := by
  simp [text, some]

/-- Names with slashes between them are the components of what they make up. -/
theorem IsProper.splitSlashes_names {p : Path} (h : p.IsProper) (some : p.names ≠ [])
    : (splitSlashes ("/".intercalate p.names).toList).map String.ofList = p.names := by
  have pieces
      : splitSlashes (['/'].intercalate (p.names.map String.toList))
        = p.names.map String.toList := by
    refine splitSlashes_intercalate (by simpa using some) fun piece member => ?_
    obtain ⟨name, among, rfl⟩ := List.mem_map.mp member
    exact h.plain name among
  rw [String.toList_intercalate]
  have slash : "/".toList = ['/'] := rfl
  rw [slash, pieces, List.map_map]
  simp [Function.comp_def]

/-- The components of the text of a path are its names, after idle ones that its root adds. -/
theorem IsProper.exists_components_text {p : Path} (h : p.IsProper)
    : ∃ idle,
        components p.text = idle ++ p.names
        ∧ ∀ name ∈ idle, isIdle name = true := by
  by_cases none : p.names = []
  · rw [none]
    refine ⟨_, (List.append_nil _).symm, ?_⟩
    rcases h.eq_of_names_nil none with rfl | rfl | rfl <;> decide +kernel
  · have names := h.splitSlashes_names none
    rcases h.root_mem with root | root | root
    · refine ⟨[], ?_, nofun⟩
      rw [components, text_eq none, root, String.empty_append, names, List.nil_append]
    · refine ⟨[""], ?_, by decide⟩
      rw [components, text_eq none, root, String.toList_append]
      have slash : "/".toList = ['/'] := rfl
      rw [slash, List.singleton_append, splitSlashes_cons_slash, List.map_cons, names]
      rfl
    · refine ⟨["", ""], ?_, by decide⟩
      rw [components, text_eq none, root, String.toList_append]
      have slashes : "//".toList = ['/', '/'] := rfl
      rw [slashes, List.cons_append, List.singleton_append, splitSlashes_cons_slash,
        splitSlashes_cons_slash, List.map_cons, List.map_cons, names]
      rfl

/-- A text does not start with a slash if its first piece has one letter at least. -/
theorem takeWhile_slash {piece : List Char} (plain : '/' ∉ piece) (some : piece ≠ [])
    (rest : List Char)
    : (piece ++ rest).takeWhile (· == '/') = [] := by
  obtain ⟨c, others, rfl⟩ := List.exists_cons_of_ne_nil some
  have apart : ¬c = '/' := by
    rintro rfl
    exact plain (List.mem_cons_self ..)
  simp [apart]

/-- What does not start with a slash leaves the root as it is. -/
theorem rootOf_append {tail : List Char} (apart : tail.takeWhile (· == '/') = [])
    (front : List Char)
    : rootOf (front ++ tail) = rootOf front := by
  have same : (front ++ tail).takeWhile (· == '/') = front.takeWhile (· == '/') := by
    rw [List.takeWhile_append, apart, List.append_nil]
    split
    · next whole => exact ((List.takeWhile_prefix _).eq_of_length whole).symm
    · rfl
  rw [rootOf, same, rootOf]

/-- There is a root exactly if a text starts with a slash. -/
theorem rootOf_eq_empty_iff (text : List Char)
    : rootOf text = "" ↔ ¬['/'] <+: text := by
  cases text with
  | nil => exact iff_of_true rfl (by simp)
  | cons c rest =>
      by_cases slash : c = '/'
      · subst slash
        refine iff_of_false ?_ (by simp)
        simp only [rootOf, List.takeWhile_cons, BEq.rfl, if_true]
        split <;> simp_all
      · have apart : '/' ≠ c := Ne.symm slash
        simp [rootOf, slash, apart]

/-- The slashes in front of the text of a path are its root. -/
theorem IsProper.rootOf_text {p : Path} (h : p.IsProper)
    : rootOf p.text.toList = p.root := by
  have roots : rootOf p.root.toList = p.root := by
    rcases h.root_mem with root | root | root <;> rw [root] <;> decide +kernel
  by_cases none : p.names = []
  · rcases h.eq_of_names_nil none with rfl | rfl | rfl <;> decide +kernel
  · obtain ⟨name, others, names⟩ := List.exists_cons_of_ne_nil none
    have member : name ∈ p.names := names ▸ List.mem_cons_self ..
    have some : name.toList ≠ [] := by
      intro empty
      have active := h.active name member
      rw [String.toList_eq_nil_iff.mp empty] at active
      cases active
    have first : ∃ rest, ['/'].intercalate (p.names.map String.toList) = name.toList ++ rest := by
      rw [names]
      cases others <;> simp
    obtain ⟨rest, first⟩ := first
    have apart := takeWhile_slash (h.plain name member) some rest
    rw [← first] at apart
    have slash : "/".toList = ['/'] := rfl
    rw [text_eq none, String.toList_append, String.toList_intercalate, slash, rootOf_append apart,
      roots]

/-- A path reads back from its own text. -/
theorem IsProper.ofString_text {p : Path} (h : p.IsProper)
    : ofString p.text = p := by
  obtain ⟨idle, cut, still⟩ := h.exists_components_text
  have dropped : idle.filter (fun name => !isIdle name) = [] := by
    simpa using still
  have kept : p.names.filter (fun name => !isIdle name) = p.names := by
    simpa using h.active
  simp only [ofString, h.rootOf_text, cut, List.filter_append, dropped, kept, List.nil_append]

theorem IsProper.text_ne_empty {p : Path} (h : p.IsProper)
    : p.text ≠ "" := by
  intro empty
  have read := h.ofString_text
  rw [empty] at read
  rw [← read] at empty
  exact absurd empty (by decide +kernel)

/-- The first of some names make up the beginning of the text, by induction on them. -/
theorem exists_intercalate_append (above below : List String)
    : ∃ tail, "/".intercalate (above ++ below) = "/".intercalate above ++ tail := by
  induction above with
  | nil => exact ⟨_, (String.empty_append ..).symm⟩
  | cons name above ih =>
      cases above with
      | nil =>
          cases below with
          | nil => exact ⟨"", (String.append_empty ..).symm⟩
          | cons next below =>
              refine ⟨"/" ++ "/".intercalate (next :: below), ?_⟩
              rw [List.singleton_append, String.intercalate_cons_cons, String.intercalate_singleton,
                String.append_assoc]
      | cons next above =>
          obtain ⟨tail, rest⟩ := ih
          rw [List.cons_append] at rest
          refine ⟨tail, ?_⟩
          rw [List.cons_append, List.cons_append, String.intercalate_cons_cons, rest,
            String.intercalate_cons_cons, String.append_assoc, String.append_assoc,
            String.append_assoc]

-----------------------------------------------------------------------------------------
-- Endings
-----------------------------------------------------------------------------------------

/-- The component that the text of a path ends with: its last name, if there is one. -/
def lastComponent (p : Path) : String :=
  p.names.getLast?.getD (if p.root = "" then stay else "")

theorem names_cases (p : Path)
    : p.names = [] ∨ p.names = p.names.dropLast ++ [p.lastComponent] := by
  rcases List.eq_nil_or_concat p.names with none | ⟨before, last, names⟩
  · exact .inl none
  · right
    rw [lastComponent, names]
    simp

theorem IsProper.exists_components_eq {p : Path} (h : p.IsProper)
    : ∃ idle,
        components p.text = idle ++ p.names.dropLast ++ [p.lastComponent]
        ∧ ∀ name ∈ idle, isIdle name = true := by
  rcases p.names_cases with none | some
  · rcases h.eq_of_names_nil none with rfl | rfl | rfl
    · exact ⟨[], by decide +kernel, nofun⟩
    · exact ⟨[""], by decide +kernel, by decide⟩
    · exact ⟨["", ""], by decide +kernel, by decide⟩
  · obtain ⟨idle, cut, still⟩ := h.exists_components_text
    exact ⟨idle, by rw [cut, List.append_assoc, ← some], still⟩

/-- An ending is put to the last component, which becomes a name if it was none. -/
theorem IsProper.ofString_append {p : Path} (h : p.IsProper) {ending : String}
    (plain : '/' ∉ ending.toList) (long : 1 < ending.length)
    : ofString (p.text ++ ending) = ⟨p.root, p.names.dropLast ++ [p.lastComponent ++ ending]⟩ := by
  have cut
      : components (p.text ++ ending)
        = (components p.text).dropLast ++ [(components p.text).getLast?.getD "" ++ ending] := by
    obtain ⟨before, last, bare, ended⟩ := exists_splitSlashes_append plain p.text.toList
    rw [components, components, String.toList_append, bare, ended]
    simp
  obtain ⟨idle, whole, still⟩ := h.exists_components_eq
  rw [whole, List.dropLast_concat, List.getLast?_concat, Option.getD_some] at cut
  have dropped : idle.filter (fun name => !isIdle name) = [] := by
    simpa using still
  have kept : p.names.dropLast.filter (fun name => !isIdle name) = p.names.dropLast := by
    simpa using fun name member => h.active name (List.mem_of_mem_dropLast member)
  have active : isIdle (p.lastComponent ++ ending) = false :=
    isIdle_of_long (by rw [String.length_append]; omega)
  have root : rootOf (p.text ++ ending).toList = p.root := by
    have some : ending.toList ≠ [] := by
      intro empty
      rw [String.toList_eq_nil_iff.mp empty] at long
      cases long
    have apart := takeWhile_slash plain some []
    rw [List.append_nil] at apart
    rw [String.toList_append, rootOf_append apart, h.rootOf_text]
  rw [ofString, root, cut, List.filter_append, List.filter_append, dropped, kept]
  simp [active]

/-- The folder above stays the same. -/
theorem IsProper.parent_withEnding {p : Path} (h : p.IsProper) {ending : String}
    (plain : '/' ∉ ending.toList) (long : 1 < ending.length)
    : (p.withEnding ending).parent = p.parent := by
  rw [withEnding]
  split
  · rfl
  · rw [h.ofString_append plain long, parent, List.dropLast_concat, parent]

end Path

end InteriorPoint
