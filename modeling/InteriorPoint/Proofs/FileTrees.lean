import InteriorPoint.File.Tree
import InteriorPoint.Proofs.Assembly
import InteriorPoint.Proofs.PathTexts

/-! What is found in a tree of folders and files after something was made or written there. A path
leads through folders, which writing a file leaves alone, so a file is found at its own place and
everything else as before; and the folders that a file needs are made unless something is in the
way.
-/

namespace InteriorPoint

namespace FileTree

variable {β : Type} {tree made : FileTree β} {here there place : Place} {text : String}
  {p : Path}

-----------------------------------------------------------------------------------------
-- The way to a place
-----------------------------------------------------------------------------------------

/-- Where the paths with a root start. -/
def start (root : String) : Place :=
  if root = "" then [] else [rootName]

theorem isFolder_start (tree : FileTree β) (root : String)
    : tree.isFolder (start root) = true := by
  rw [start]
  split <;> simp [isFolder]

/-- The way through names is first that through some of them and then that through the others. -/
theorem follow_append (tree : FileTree β) (here : Place) (first later : List String)
    : tree.follow here (first ++ later)
      = (tree.follow here first).bind fun there => tree.follow there later := by
  induction first generalizing here with
  | nil => rfl
  | cons name first ih =>
      rw [List.cons_append, follow, follow]
      split
      · split
        · exact ih here
        · split
          · rfl
          · exact ih _
      · split <;> rfl

/-- Idle components stay in a folder. -/
theorem follow_idle (folder : tree.isFolder here = true) {names : List String}
    (idle : ∀ name ∈ names, Path.isIdle name = true)
    : tree.follow here names = .ok here := by
  induction names with
  | nil => rfl
  | cons name names ih =>
      obtain ⟨first, later⟩ := List.forall_mem_cons.mp idle
      rw [follow, if_pos folder, if_pos first, ih later]

/-- The way through one name more. -/
theorem follow_concat_ok {names : List String} {name : String}
    (active : Path.isIdle name = false) (found : tree.follow here (names ++ [name]) = .ok place)
    : ∃ there, tree.follow here names = .ok there ∧ place = step there name := by
  rw [follow_append] at found
  obtain ⟨there, first, last⟩ := bind_ok found
  refine ⟨there, first, ?_⟩
  rw [follow] at last
  split at last
  · rw [if_neg (by simp [active])] at last
    split at last
    · cases last
    · exact (Except.ok.inj last).symm
  · split at last <;> cases last

/-- Whether a text can be the text of a path: it is not empty, not too long and has no null
character in it.
-/
structure IsPathText (text : String) : Prop where
  clean : '\x00' ∉ text.toList
  short : text.utf8ByteSize ≤ pathLimit
  nonempty : text ≠ ""

instance (text : String) : Decidable (IsPathText text) :=
  decidable_of_iff (_ ∧ _ ∧ _)
    ⟨fun ⟨clean, short, nonempty⟩ => ⟨clean, short, nonempty⟩,
      fun h => ⟨h.clean, h.short, h.nonempty⟩⟩

/-- The place of a text is where its components lead. -/
theorem locate_eq (h : IsPathText text) (tree : FileTree β)
    : tree.locate text
      = tree.follow (start (Path.rootOf text.toList)) (Path.components text) := by
  have clean : ¬text.contains '\x00' = true := by
    simpa using h.clean
  have some : ¬text.isEmpty = true := by
    simpa using h.nonempty
  rw [locate, if_neg clean, if_neg (Nat.not_lt.mpr h.short), if_neg some]
  congr 1
  have slash : rootName.toList = ['/'] := rfl
  by_cases rooted : ['/'] <+: text.toList
  · have root : ¬Path.rootOf text.toList = "" := fun none =>
      (Path.rootOf_eq_empty_iff _).mp none rooted
    rw [start, if_neg root, if_pos (String.startsWith_string_iff.mpr (slash ▸ rooted))]
  · have apart : ¬text.startsWith rootName = true := fun starts =>
      rooted (slash ▸ String.startsWith_string_iff.mp starts)
    rw [start, if_pos ((Path.rootOf_eq_empty_iff _).mpr rooted), if_neg apart]

/-- A text that can be none is refused in the same way in all trees. -/
theorem locate_of_not_isPathText (h : ¬IsPathText text)
    : ∃ cause, ∀ tree : FileTree β, tree.locate text = .error cause := by
  by_cases clean : text.contains '\x00' = true
  · exact ⟨_, fun tree => by rw [locate, if_pos clean]⟩
  · by_cases long : pathLimit < text.utf8ByteSize
    · exact ⟨_, fun tree => by rw [locate, if_neg clean, if_pos long]⟩
    · have empty : text.isEmpty = true := by
        by_contra some
        exact h ⟨by simpa using clean, Nat.not_lt.mp long, by simpa using some⟩
      exact ⟨_, fun tree => by rw [locate, if_neg clean, if_neg long, if_pos empty]⟩

theorem isPathText_of_locate_ok (found : tree.locate text = .ok place)
    : IsPathText text := by
  by_contra h
  obtain ⟨cause, refused⟩ := locate_of_not_isPathText (β := β) h
  rw [refused] at found
  cases found

/-- The way of a path goes through its names. -/
theorem follow_components (tree : FileTree β) (h : p.IsProper)
    : tree.follow (start (Path.rootOf p.text.toList)) (Path.components p.text)
      = tree.follow (start p.root) p.names := by
  obtain ⟨idle, cut, still⟩ := h.exists_components_text
  rw [h.rootOf_text, cut, follow_append, follow_idle (isFolder_start tree _) still]
  rfl

/-- The place of a path is where its names lead. -/
theorem locate_text (h : p.IsProper) (fit : IsPathText p.text)
    : tree.locate p.text = tree.follow (start p.root) p.names := by
  rw [locate_eq fit, follow_components tree h]

/-- A step down through a longer name leads to another place. -/
theorem step_ne_append (here : Place) {name longer : String} (length : name.length < longer.length)
    (long : Path.up.length < longer.length)
    : step here name ≠ here ++ [longer] := by
  have apart {other : String} (shorter : other.length < longer.length)
      : here ++ [other] ≠ here ++ [longer] := by
    intro same
    obtain rfl : other = longer := List.singleton_inj.mp (List.append_cancel_left same)
    exact lt_irrefl _ shorter
  rw [step]
  split
  · cases last : here.getLast? with
    | none =>
        obtain rfl := List.getLast?_eq_none_iff.mp last
        exact apart long
    | some last =>
        dsimp only
        split
        · exact apart long
        · split
          · intro same
            simpa using congrArg List.length same
          · intro same
            have lengths := congrArg List.length same
            simp only [List.length_dropLast, List.length_append, List.length_singleton] at lengths
            omega
  · exact apart length

/-- With an ending put to it, a path leads to another place. -/
theorem place_ne_of_append (h : p.IsProper) {ending : String} (plain : '/' ∉ ending.toList)
    (long : 2 < ending.length) (bare : tree.locate p.text = .ok there)
    (ended : tree.locate (Path.ofString (p.text ++ ending)).text = .ok place)
    : there ≠ place := by
  have first := bare
  rw [locate_text h (isPathText_of_locate_ok bare)] at first
  have last := ended
  rw [locate_text (Path.isProper_ofString _) (isPathText_of_locate_ok ended),
    h.ofString_append plain (by omega)] at last
  have longer : (p.lastComponent ++ ending).length = p.lastComponent.length + ending.length :=
    String.length_append _ _
  obtain ⟨above, way, rfl⟩ := follow_concat_ok (Path.isIdle_of_long (by omega)) last
  have up : Path.up.length = 2 := rfl
  have down : step above (p.lastComponent ++ ending) = above ++ [p.lastComponent ++ ending] := by
    have other : ¬p.lastComponent ++ ending = Path.up := by
      intro same
      rw [same] at longer
      omega
    simp [step, other]
  rw [down]
  rcases p.names_cases with none | some
  · rw [none] at first way
    obtain rfl := Except.ok.inj first
    obtain rfl := Except.ok.inj way
    simp
  · have active : Path.isIdle p.lastComponent = false :=
      h.active _ (some ▸ List.mem_append_right _ (List.mem_singleton_self _))
    rw [some] at first
    obtain ⟨other, same, rfl⟩ := follow_concat_ok active first
    obtain rfl := Except.ok.inj (same.symm.trans way)
    exact step_ne_append other (by omega) (by omega)

-----------------------------------------------------------------------------------------
-- Writing a file
-----------------------------------------------------------------------------------------

/-- The tree in which a file was written. -/
def overwrite (tree : FileTree β) (place : Place) (contents : β) : FileTree β :=
  { tree with files := (tree.files.filter fun file => file.1 != place) ++ [(place, contents)] }

theorem write_eq (found : tree.locate p.text = .ok place) (free : tree.isFolder place = false)
    (contents : β)
    : tree.write p contents = .ok (tree.overwrite place contents) := by
  simp [write, found, free, overwrite]

/-- A file is written exactly where no folder is. -/
theorem exists_place_of_write {contents : β} {after : FileTree β}
    (written : tree.write p contents = .ok after)
    : ∃ place, tree.locate p.text = .ok place ∧ tree.isFolder place = false := by
  rw [write] at written
  split at written
  · cases written
  · next place found =>
      split at written
      · cases written
      · next free => exact ⟨place, found, by simpa using free⟩

@[simp]
theorem isFolder_overwrite (tree : FileTree β) (place : Place) (contents : β)
    : (tree.overwrite place contents).isFolder = tree.isFolder :=
  rfl

theorem contents?_overwrite_self (tree : FileTree β) (place : Place) (contents : β)
    : (tree.overwrite place contents).contents? place = some contents := by
  have none : (tree.files.filter fun file => file.1 != place).find? (fun file => file.1 == place)
      = none := by
    simp
  simp [contents?, overwrite, List.find?_append, none]

theorem contents?_overwrite_of_ne (apart : there ≠ place) (tree : FileTree β) (contents : β)
    : (tree.overwrite place contents).contents? there = tree.contents? there := by
  have same
      : (fun file : Place × β => decide ((file.1 != place) = true ∧ (file.1 == there) = true))
        = fun file => file.1 == there := by
    funext file
    by_cases found : file.1 = there
    · simp [found, apart]
    · simp [found]
  have absent : (place == there) = false := by
    simpa using Ne.symm apart
  rw [contents?, overwrite, List.find?_append, List.find?_filter, same]
  simp [absent, contents?]

/-- A way leads where it led, or fails again; only whether a file ends it may be new. -/
theorem follow_overwrite (tree : FileTree β) (place : Place) (contents : β) (here : Place)
    (names : List String)
    : ((tree.overwrite place contents).follow here names).mapError (· == .nameTooLong)
      = (tree.follow here names).mapError (· == .nameTooLong) := by
  induction names generalizing here with
  | nil => rfl
  | cons name names ih =>
      rw [follow, follow, isFolder_overwrite]
      split
      · split
        · exact ih here
        · split
          · rfl
          · exact ih _
      · split <;> split <;> rfl

theorem locate_overwrite (tree : FileTree β) (place : Place) (contents : β) (text : String)
    : ((tree.overwrite place contents).locate text).mapError (· == .nameTooLong)
      = (tree.locate text).mapError (· == .nameTooLong) := by
  by_cases fit : IsPathText text
  · rw [locate_eq fit, locate_eq fit, follow_overwrite]
  · obtain ⟨cause, refused⟩ := locate_of_not_isPathText (β := β) fit
    rw [refused, refused]

theorem find_eq (found : tree.locate text = .ok place)
    : tree.find text
      = match tree.node? place with
        | some node => .ok node
        | none => .error .missing := by
  rw [find, found]
  rfl

/-- A file is found where it was written. -/
theorem find_overwrite_self (found : tree.locate text = .ok place)
    (free : tree.isFolder place = false) (contents : β)
    : (tree.overwrite place contents).find text = .ok (.file contents) := by
  have again : (tree.overwrite place contents).locate text = .ok place := by
    have same := locate_overwrite tree place contents text
    rw [found] at same
    exact mapError_ok same
  rw [find_eq again, node?, isFolder_overwrite, free, contents?_overwrite_self]
  rfl

/-- What lies elsewhere is found as before. -/
theorem find_overwrite_of_ne (tree : FileTree β) (contents : β)
    (apart : ∀ there, tree.locate text = .ok there → there ≠ place)
    : ((tree.overwrite place contents).find text).mapError (· == .nameTooLong)
      = (tree.find text).mapError (· == .nameTooLong) := by
  have same := locate_overwrite tree place contents text
  cases before : tree.locate text with
  | error cause =>
      rw [before] at same
      obtain ⟨other, after, equal⟩ := mapError_error same
      rw [find, find, before, after]
      exact congrArg Except.error equal
  | ok there =>
      rw [before] at same
      have after := mapError_ok same
      have node : (tree.overwrite place contents).node? there = tree.node? there := by
        rw [node?, node?, isFolder_overwrite, contents?_overwrite_of_ne (apart there before)]
      rw [find_eq after, find_eq before, node]

-----------------------------------------------------------------------------------------
-- Making folders
-----------------------------------------------------------------------------------------

/-- Whether a name leads down, and is not too long. -/
def LeadsDown (name : String) : Prop :=
  name ≠ Path.up ∧ name.utf8ByteSize ≤ nameLimit

instance (name : String) : Decidable (LeadsDown name) :=
  inferInstanceAs (Decidable (_ ∧ _))

/-- Whether something holds on a way down through names, from its start to its end. -/
def HoldsAlong (holds : Place → Prop) (here : Place) (names : List String) : Prop :=
  ∀ above, above <+: names → holds (here ++ above)

theorem holdsAlong_nil_iff {holds : Place → Prop}
    : HoldsAlong holds here [] ↔ holds here := by
  simp [HoldsAlong]

theorem holdsAlong_cons_iff {holds : Place → Prop} {name : String} {names : List String}
    : HoldsAlong holds here (name :: names)
      ↔ holds here ∧ HoldsAlong holds (here ++ [name]) names := by
  constructor
  · intro h
    refine ⟨by simpa using h [] List.nil_prefix, fun above among => ?_⟩
    simpa using h (name :: above) (List.cons_prefix_cons.mpr ⟨rfl, among⟩)
  · rintro ⟨first, later⟩ above among
    cases above with
    | nil => simpa using first
    | cons other above =>
        obtain ⟨rfl, among'⟩ := List.cons_prefix_cons.mp among
        simpa using later above among'

/-- Whether there are folders on a way. -/
def IsOpen (tree : FileTree β) (here : Place) (names : List String) : Prop :=
  HoldsAlong (fun place => tree.isFolder place = true) here names

/-- Whether there are no files on a way where folders have to be. -/
def IsClear (tree : FileTree β) (here : Place) (names : List String) : Prop :=
  HoldsAlong (fun place => tree.isFolder place = true ∨ tree.contents? place = none) here names

theorem isClear_empty (here : Place) (names : List String)
    : (empty : FileTree β).IsClear here names := fun _ _ =>
  .inr rfl

theorem follow_cons {name : String} (folder : tree.isFolder here = true)
    (active : Path.isIdle name = false) (down : LeadsDown name) (rest : List String)
    : tree.follow here (name :: rest) = tree.follow (here ++ [name]) rest := by
  have further : step here name = here ++ [name] := by
    simp [step, down.1]
  rw [follow, if_pos folder, if_neg (by simp [active]), if_neg (Nat.not_lt.mpr down.2), further]

/-- A way goes down from folder to folder. -/
theorem follow_of_isOpen {names : List String} (opened : tree.IsOpen here names)
    (active : ∀ name ∈ names, Path.isIdle name = false) (down : ∀ name ∈ names, LeadsDown name)
    : tree.follow here names = .ok (here ++ names) := by
  induction names generalizing here with
  | nil => simp [follow]
  | cons name names ih =>
      obtain ⟨first, others⟩ := List.forall_mem_cons.mp active
      obtain ⟨firstDown, othersDown⟩ := List.forall_mem_cons.mp down
      obtain ⟨folder, further⟩ := holdsAlong_cons_iff.mp opened
      rw [follow_cons folder first firstDown, ih further others othersDown]
      simp

theorem follow_of_none (folder : ¬tree.isFolder here = true) (none : tree.contents? here = none)
    (name : String) (rest : List String)
    : tree.follow here (name :: rest) = .error .missing := by
  simp [follow, folder, none]

/-- Where a folder is missing and no file is in its place, the way to what lies below is missing; by
induction on the names down to there.
-/
theorem follow_concat_missing {names : List String} (clear : tree.IsClear here names)
    (active : ∀ name ∈ names, Path.isIdle name = false) (down : ∀ name ∈ names, LeadsDown name)
    (closed : ¬tree.IsOpen here names) (last : String)
    : tree.follow here (names ++ [last]) = .error .missing := by
  induction names generalizing here with
  | nil =>
      have none := holdsAlong_nil_iff.mp clear
      have missing : ¬tree.isFolder here = true := fun folder =>
        closed (holdsAlong_nil_iff.mpr folder)
      exact follow_of_none missing (none.resolve_left missing) last []
  | cons name names ih =>
      obtain ⟨none, further⟩ := holdsAlong_cons_iff.mp clear
      obtain ⟨firstActive, active⟩ := List.forall_mem_cons.mp active
      obtain ⟨firstDown, down⟩ := List.forall_mem_cons.mp down
      by_cases folder : tree.isFolder here = true
      · have shut : ¬tree.IsOpen (here ++ [name]) names := fun opened =>
          closed (holdsAlong_cons_iff.mpr ⟨folder, opened⟩)
        rw [List.cons_append, follow_cons folder firstActive firstDown]
        exact ih further active down shut
      · exact follow_of_none folder (none.resolve_left folder) name (names ++ [last])

/-- The tree with a folder at a place. -/
def withFolder (tree : FileTree β) (place : Place) : FileTree β :=
  if tree.isFolder place then tree else { tree with folders := tree.folders ++ [place] }

@[simp]
theorem files_withFolder (tree : FileTree β) (place : Place)
    : (tree.withFolder place).files = tree.files := by
  rw [withFolder]
  split <;> rfl

theorem isFolder_withFolder (tree : FileTree β) (place there : Place)
    : (tree.withFolder place).isFolder there = true
      ↔ tree.isFolder there = true ∨ there = place := by
  rw [withFolder]
  split
  · next folder => exact ⟨.inl, fun h => h.elim id fun same => same ▸ folder⟩
  · simp [isFolder, or_assoc]

/-- A folder is made, or is there already, where no file is. -/
theorem ensureOne_eq (found : tree.locate p.text = .ok place)
    (clear : tree.isFolder place = true ∨ tree.contents? place = none)
    : tree.ensureOne p = (.ok (), tree.withFolder place)
      ∧ tree.makeOne p ≠ .error .missing := by
  by_cases folder : tree.isFolder place = true
  · have node : tree.node? place = some .folder := if_pos folder
    have taken : tree.makeOne p = .error .taken := by
      rw [makeOne, found]
      simp [bind, Except.bind, node]
      rfl
    have there : tree.hasFolder p.text = true := by
      rw [hasFolder, find_eq found, node]
    refine ⟨?_, by simp [taken]⟩
    rw [ensureOne, taken]
    simp [tolerate, there, withFolder, folder]
  · have node : tree.node? place = none := by
      rw [node?, if_neg folder, clear.resolve_left folder]
      rfl
    have done : tree.makeOne p = .ok (tree.withFolder place) := by
      rw [makeOne, found, withFolder, if_neg folder]
      simp [bind, Except.bind, node]
      rfl
    exact ⟨by rw [ensureOne, done], by simp [done]⟩

theorem contents?_eq (same : made.files = tree.files) (place : Place)
    : made.contents? place = tree.contents? place := by
  rw [contents?, same, contents?]

/-- The folders on a way were made, and nothing else. -/
structure IsWayMade (tree made : FileTree β) (here : Place) (names : List String) : Prop where
  files_eq : made.files = tree.files
  isFolder_iff
    : ∀ place,
        made.isFolder place = true
        ↔ tree.isFolder place = true ∨ ∃ above, above <+: names ∧ place = here ++ above

theorem IsWayMade.isOpen {names : List String} (h : IsWayMade tree made here names)
    : made.IsOpen here names := by
  intro above among
  exact (h.isFolder_iff _).mpr (.inr ⟨above, among, rfl⟩)

/-- With the last folder on a way made after those above it, the way is made. -/
theorem IsWayMade.withFolder {names : List String} (h : IsWayMade tree made here names)
    (last : String)
    : IsWayMade tree (made.withFolder (here ++ (names ++ [last]))) here (names ++ [last]) where
  files_eq := by
    rw [files_withFolder, h.files_eq]
  isFolder_iff := by
    intro place
    rw [isFolder_withFolder, h.isFolder_iff]
    constructor
    · rintro ((folder | ⟨above, among, rfl⟩) | rfl)
      · exact .inl folder
      · exact .inr ⟨above, among.trans (List.prefix_append ..), rfl⟩
      · exact .inr ⟨_, List.prefix_rfl, rfl⟩
    · rintro (folder | ⟨above, among, rfl⟩)
      · exact .inl (.inl folder)
      · rcases List.prefix_concat_iff.mp among with rfl | among
        · exact .inr rfl
        · exact .inl (.inr ⟨above, among, rfl⟩)

theorem IsOpen.isWayMade {names : List String} (h : tree.IsOpen here names)
    : IsWayMade tree tree here names where
  files_eq := rfl
  isFolder_iff := by
    intro place
    refine ⟨.inl, ?_⟩
    rintro (folder | ⟨above, among, rfl⟩)
    · exact folder
    · exact h above among

/-- A path of which nothing but its place in the tree is in question: its text can be one, and its
names lead down.
-/
structure IsPlain (p : Path) : Prop extends p.IsProper where
  fit : IsPathText p.text
  down : ∀ name ∈ p.names, LeadsDown name

instance (p : Path) : Decidable (IsPlain p) :=
  decidable_of_iff (_ ∧ _ ∧ _)
    ⟨fun ⟨proper, fit, down⟩ => { proper with fit, down }, fun h => ⟨h.toIsProper, h.fit, h.down⟩⟩

/-- The path to a folder above is as plain as the path. -/
theorem IsPlain.above {root : String} {names below : List String}
    (h : IsPlain ⟨root, names ++ below⟩)
    : IsPlain ⟨root, names⟩ := by
  have proper : Path.IsProper ⟨root, names⟩ := {
    root_mem := h.root_mem
    plain := fun name member => h.plain name (List.mem_append_left _ member)
    active := fun name member => h.active name (List.mem_append_left _ member)
  }
  have down (name : String) (member : name ∈ names) := h.down name (List.mem_append_left _ member)
  refine { proper with fit := ?_, down }
  by_cases none : names = []
  · rcases proper.eq_of_names_nil none with same | same | same <;> rw [same] <;> decide +kernel
  · have some : names ++ below ≠ [] := by simp [none]
    obtain ⟨tail, whole⟩ := Path.exists_intercalate_append names below
    have text
        : (⟨root, names ++ below⟩ : Path).text = (⟨root, names⟩ : Path).text ++ tail := by
      rw [Path.text_eq some, Path.text_eq none, whole, String.append_assoc]
    have clean := h.fit.clean
    have short := h.fit.short
    rw [text, String.toList_append] at clean
    rw [text, String.utf8ByteSize_append] at short
    exact ⟨fun member => clean (List.mem_append_left _ member), by omega, proper.text_ne_empty⟩

/-- A plain path leads through the folders above it to its place. -/
theorem locate_of_isOpen {root name : String} {above : List String}
    (h : IsPlain ⟨root, above ++ [name]⟩) (opened : tree.IsOpen (start root) above)
    : tree.locate (⟨root, above ++ [name]⟩ : Path).text
      = .ok (start root ++ (above ++ [name])) := by
  have folder : tree.isFolder (start root ++ above) = true := opened above List.prefix_rfl
  have step := follow_cons folder (h.active name (by simp)) (h.down name (by simp)) []
  rw [locate_text h.toIsProper h.fit, follow_append,
    follow_of_isOpen opened h.above.active h.above.down, ← List.append_assoc]
  exact step

/-- The way of a plain path is made unless there is a file on it, by induction on its names from the
start down. The last folder is made at once if those above it are there, and after them if not.
-/
theorem makeFolders_ok {root : String} (names : List String) (h : IsPlain ⟨root, names⟩)
    (clear : tree.IsClear (start root) names)
    : ∃ made,
        makeFolders root tree names.reverse = (.ok (), made)
        ∧ IsWayMade tree made (start root) names := by
  induction names using List.reverseRecOn with
  | nil =>
      have found : tree.locate (⟨root, []⟩ : Path).text = .ok (start root) := by
        rw [locate_text h.toIsProper h.fit]
        rfl
      have opened : tree.IsOpen (start root) [] :=
        holdsAlong_nil_iff.mpr (tree.isFolder_start root)
      refine ⟨_, (ensureOne_eq found (.inl (tree.isFolder_start root))).1, ?_⟩
      rw [FileTree.withFolder, if_pos (tree.isFolder_start root)]
      exact opened.isWayMade
  | append_singleton above name ih =>
      have upper : tree.IsClear (start root) above := fun before among =>
        clear before (among.trans (List.prefix_append ..))
      have ensured {made : FileTree β} (way : IsWayMade tree made (start root) above)
          : made.ensureOne ⟨root, above ++ [name]⟩
              = (.ok (), made.withFolder (start root ++ (above ++ [name])))
            ∧ made.makeOne ⟨root, above ++ [name]⟩ ≠ .error .missing := by
        refine ensureOne_eq (locate_of_isOpen h way.isOpen) ?_
        rw [contents?_eq way.files_eq, way.isFolder_iff]
        exact (clear _ List.prefix_rfl).imp_left .inl
      have order : (above ++ [name]).reverse = name :: above.reverse := by simp
      have path : (name :: above.reverse).reverse = above ++ [name] := by simp
      rw [order, makeFolders, path]
      by_cases opened : tree.IsOpen (start root) above
      · have way := opened.isWayMade
        obtain ⟨done, present⟩ := ensured way
        refine ⟨_, ?_, way.withFolder name⟩
        rw [ensureOne] at done
        cases one : tree.makeOne ⟨root, above ++ [name]⟩ with
        | ok next =>
            rw [one] at done
            exact done
        | error cause =>
            rw [one] at done
            cases cause with
            | missing => exact absurd one present
            | _ => exact done
      · obtain ⟨made, above_made, way⟩ := ih h.above upper
        have missing : tree.makeOne ⟨root, above ++ [name]⟩ = .error .missing := by
          rw [makeOne, locate_text h.toIsProper h.fit,
            follow_concat_missing upper h.above.active h.above.down opened]
          rfl
        refine ⟨_, ?_, way.withFolder name⟩
        simp only [missing, above_made, (ensured way).1]

/-- The folders above a plain path are made unless there is a file on the way, and then the path
leads to its place, where a folder is exactly if there was one.
-/
theorem exists_makeFolder_parent (h : IsPlain p) (some : p.names ≠ [])
    (clear : tree.IsClear (start p.root) p.names.dropLast)
    : ∃ made,
        tree.makeFolder p.parent = (.ok (), made)
        ∧ made.files = tree.files
        ∧ made.locate p.text = .ok (start p.root ++ p.names)
        ∧ made.isFolder (start p.root ++ p.names) = tree.isFolder (start p.root ++ p.names) := by
  obtain ⟨root, names⟩ := p
  obtain rfl | ⟨above, last, rfl⟩ := List.eq_nil_or_concat names
  · exact absurd rfl some
  · rw [List.concat_eq_append] at h clear ⊢
    rw [List.dropLast_concat] at clear
    obtain ⟨made, done, way⟩ := makeFolders_ok above h.above clear
    refine ⟨made, ?_, way.files_eq, locate_of_isOpen h way.isOpen, ?_⟩
    · rw [Path.parent, List.dropLast_concat]
      exact done
    · rw [Bool.eq_iff_iff, way.isFolder_iff]
      refine ⟨?_, .inl⟩
      rintro (folder | ⟨before, among, same⟩)
      · exact folder
      · have short := among.length_le
        rw [← List.append_cancel_left same, List.length_append, List.length_singleton] at short
        omega

/-- A place with no folder is not where its path starts. -/
theorem names_ne_nil (free : tree.isFolder (start p.root ++ p.names) = false)
    : p.names ≠ [] := by
  intro none
  rw [none, List.append_nil, isFolder_start] at free
  cases free

/-- In an empty tree plain paths lead to no folder. -/
theorem isFolder_empty (h : IsPlain p) (some : p.names ≠ [])
    : (empty : FileTree β).isFolder (start p.root ++ p.names) = false := by
  obtain ⟨name, others, names⟩ := List.exists_cons_of_ne_nil some
  have member : name ∈ p.names := names ▸ List.mem_cons_self ..
  have up : name ≠ Path.up := (h.down name member).1
  have root : name ≠ rootName := by
    rintro rfl
    exact h.plain rootName member (by decide)
  simp [isFolder, empty, names, up, root]

/-- Whether a file can be written next to a path: the folder above the path can be made, and then
the file leads to a place where no folder is.
-/
def IsWritable (tree : FileTree β) (path file : Path) : Prop :=
  ∃ made,
    tree.makeFolder path.parent = (.ok (), made)
    ∧ ∃ place, made.locate file.text = .ok place ∧ made.isFolder place = false

/-- A plain path can be written to if no file is on the way to it and no folder in its place. -/
theorem isWritable_of_isClear {file : Path} (h : IsPlain file) (parent : file.parent = p.parent)
    (clear : tree.IsClear (start file.root) file.names.dropLast)
    (free : tree.isFolder (start file.root ++ file.names) = false)
    : tree.IsWritable p file := by
  obtain ⟨made, done, -, found, same⟩ := exists_makeFolder_parent h (names_ne_nil free) clear
  exact ⟨made, parent ▸ done, _, found, same.trans free⟩

/-- Where nothing was, nothing is found after the folders above were made. -/
theorem find_after_makeFolder (h : IsPlain p)
    (clear : tree.IsClear (start p.root) p.names.dropLast)
    (absent : tree.node? (start p.root ++ p.names) = none)
    : (tree.makeFolder p.parent).2.find p.text = .error .missing := by
  have free : tree.isFolder (start p.root ++ p.names) = false := by
    rw [← Bool.not_eq_true]
    intro folder
    rw [node?, if_pos folder] at absent
    cases absent
  obtain ⟨made, done, files, found, same⟩ := exists_makeFolder_parent h (names_ne_nil free) clear
  have node : made.node? (start p.root ++ p.names) = none := by
    rw [node?, same, contents?_eq files, ← node?, absent]
  rw [done, find_eq found, node]

end FileTree

end InteriorPoint
