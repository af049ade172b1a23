import InteriorPoint.Proofs.AbstractMachine
import InteriorPoint.Proofs.DirectSolution

/-! Exact answers in sessions. Two engines that agree give the same answers along every session, and
over an ordered field both direct engines answer a factored system with its only solution.
-/

namespace InteriorPoint

open scoped Matrix

-----------------------------------------------------------------------------------------
-- Two engines in the same session
-----------------------------------------------------------------------------------------

section Agreement

variable {α : Type} [Zero α] [Sub α] [LE α] [DecidableLE α] {engine rival : Engine α Unit}

/-- Two engines agree if they factor the same matrices and answer the same solutions. What they
say where they fail may differ.
-/
structure Engine.AgreesWith (engine rival : Engine α Unit) : Prop where
  factorize
    : ∀ matrix : SquareTriplet α,
        (engine.factorize matrix.content ()).1.isOk = (rival.factorize matrix.content ()).1.isOk
  answer
    : ∀ (matrix : SquareTriplet α) (transposed : Bool) (rhs : Vector α matrix.size),
        (engine.answer matrix transposed rhs).toOption
        = (rival.answer matrix transposed rhs).toOption

/-- Two machines whose engines agree answer every call alike, and come equally far. -/
theorem Engine.AgreesWith.call (agree : engine.AgreesWith rival) (around : Surroundings α)
    (stage : Stage α) (call : Call)
    : (stage.call engine around call).1.toOption = (stage.call rival around call).1.toOption
      ∧ (stage.call engine around call).2 = (stage.call rival around call).2 := by
  cases call with
  | attach number symmetric verbose timing =>
      simp only [Stage.call]
      split <;> exact ⟨rfl, rfl⟩
  | factorize =>
      simp only [Stage.call]
      cases stage.number? with
      | none => exact ⟨rfl, rfl⟩
      | some number =>
          have alike := agree.factorize (around.matrix number)
          dsimp only
          cases made : (engine.factorize (around.matrix number).content ()).1 <;>
            cases rival_made : (rival.factorize (around.matrix number).content ()).1 <;>
            simp_all [Except.isOk, Except.toBool, Except.toOption]
  | solve transposed out rhs =>
      refine ⟨?_, rfl⟩
      simp only [Stage.call]
      cases stage with
      | released | bound => rfl
      | factored number matrix =>
          have alike := agree.answer matrix transposed ((around.array rhs).toVector matrix.size)
          simp only [Stage.solution]
          split
          · cases answered : engine.answer matrix transposed _ <;>
              cases rival_answered : rival.answer matrix transposed _ <;>
              simp_all [Except.toOption, Except.map]
          · rfl
  | release => exact ⟨rfl, rfl⟩

namespace Session

variable {s : Session engine} {other : Session rival} {stage : Stage α}

/-- Two sessions hold the same assemblies and arrays. -/
structure Matches (s : Session engine) (other : Session rival) : Prop where
  assemblies : s.bench.assemblies = other.bench.assemblies
  arrays : s.arrays = other.arrays

omit [Zero α] [Sub α] [LE α] [DecidableLE α] in
theorem Matches.surroundings_eq (same : s.Matches other)
    : s.surroundings = other.surroundings := by
  simp only [surroundings, Surroundings.mk.injEq]
  refine ⟨?_, ?_, same.arrays⟩
  · funext number
    simp only [shape, same.assemblies]
  · funext number
    simp only [Workbench.read, same.assemblies]

/-- Backends that are equally far answer every call alike if their engines agree. -/
theorem Matches.call (same : s.Matches other) (agree : engine.AgreesWith rival)
    (h : s.Implements stage) (other_h : other.Implements stage) (call : Call)
    : (s.call call).1.toOption = (other.call call).1.toOption
      ∧ (s.call call).2.Matches (other.call call).2 := by
  have alike : (s.call call).1.toOption = (other.call call).1.toOption := by
    rw [h.answer_eq, other_h.answer_eq, same.surroundings_eq]
    exact (agree.call _ stage call).1
  refine ⟨alike, ?_⟩
  cases call with
  | solve transposed out rhs =>
      simp only [call_solve_snd]
      generalize (s.call (.solve transposed out rhs)).1 = answer at alike ⊢
      generalize (other.call (.solve transposed out rhs)).1 = other_answer at alike ⊢
      obtain _ | _ | values := answer <;> obtain _ | _ | other_values := other_answer <;>
        simp_all [Except.toOption]
      exact ⟨same.assemblies, by simp [same.arrays]⟩
  | attach | factorize | release => exact ⟨same.assemblies, same.arrays⟩

/-- Two sessions stay alike with every move. -/
theorem Matches.move (same : s.Matches other) (agree : engine.AgreesWith rival)
    (h : s.Implements stage) (other_h : other.Implements stage) (next : Move α)
    : (s.move next).Matches (other.move next)
      ∧ stage.move engine s.surroundings next = stage.move rival other.surroundings next := by
  cases next with
  | make name rows cols capacity entries =>
      refine ⟨⟨?_, same.arrays⟩, rfl⟩
      simp only [Session.move, Workbench.make, bind, Except.bind, same.assemblies]
      cases Triplet.new rows cols capacity with
      | error fault => exact same.assemblies
      | ok empty =>
          dsimp only
          cases entries.foldlM (fun t x => t.put x.1 x.2.1 x.2.2) empty.content with
          | error fault => exact same.assemblies
          | ok content => rfl
  | edit number command =>
      refine ⟨⟨?_, same.arrays⟩, rfl⟩
      simp only [Session.move, Workbench.edit, same.assemblies]
      cases other.bench.assemblies[number]? with
      | none => exact same.assemblies
      | some t =>
          dsimp only
          cases t.content.apply command with
          | error fault => exact same.assemblies
          | ok content => rfl
  | fill number array =>
      exact ⟨⟨same.assemblies, by simp only [Session.move, same.arrays]⟩, rfl⟩
  | call call =>
      refine ⟨(same.call agree h other_h call).2, ?_⟩
      rw [same.surroundings_eq]
      exact (agree.call _ stage call).2

/-- So they do with any number of moves, and their backends come equally far. -/
theorem Matches.after (same : s.Matches other) (agree : engine.AgreesWith rival)
    (h : s.Implements stage) (other_h : other.Implements stage) (moves : List (Move α))
    : (s.after moves).Matches (other.after moves)
      ∧ stage.after s moves = stage.after other moves := by
  induction moves generalizing s other stage with
  | nil => exact ⟨same, rfl⟩
  | cons next rest ih =>
      obtain ⟨same_next, stage_next⟩ := same.move agree h other_h next
      have other_next := other_h.move next
      rw [← stage_next] at other_next
      obtain ⟨same_last, stage_last⟩ := ih same_next (h.move next) other_next
      refine ⟨same_last, stage_last.trans ?_⟩
      rw [stage_next]
      rfl

end Session

end Agreement

namespace Direct

variable {α : Type} [Field α] [LinearOrder α] [IsStrictOrderedRing α]

/-- The two direct engines agree. -/
theorem engine_agreesWith (kind rival : Direct)
    : (engine kind : Engine α Unit).AgreesWith (engine rival) := by
  constructor
  · intro matrix
    have alike := (kind.factorize_eq_error_iff matrix.content).trans
      (rival.factorize_eq_error_iff matrix.content).symm
    cases made : ((engine kind).factorize matrix.content ()).1 <;>
      cases rival_made : ((engine rival).factorize matrix.content ()).1 <;>
      simp_all [Except.isOk, Except.toBool]
  · rintro ⟨n, t⟩ transposed rhs
    by_cases singular : (Entries.toMatrix t.entries).det = 0
    · obtain ⟨cause, fails⟩ := (kind.factorize_eq_error_iff t).mpr singular
      obtain ⟨rival_cause, rival_fails⟩ := (rival.factorize_eq_error_iff t).mpr singular
      simp [Engine.answer, fails, rival_fails, Except.toOption]
    · obtain ⟨x, answered, unique⟩ := kind.exists_answer singular transposed rhs
      obtain ⟨y, rival_answered, rival_unique⟩ := rival.exists_answer singular transposed rhs
      have same := (rival_unique x.get).mp ((unique x.get).mpr rfl)
      rw [answered, rival_answered, vector_ext_get same]

end Direct

-----------------------------------------------------------------------------------------
-- What a session with a direct engine solves
-----------------------------------------------------------------------------------------

namespace Session

variable {α : Type} [Field α] [LinearOrder α] [IsStrictOrderedRing α] {kind : Direct}
  {s : Session (kind.engine (α := α))} {stage : Stage α} {n number : Nat} {t : Triplet α n n}

/-- A bound backend fails to factor a singular assembly, and no other one. -/
theorem factorize_iff (bound : s.bench.backend.target? = some number)
    (held : s.bench.assemblies[number]? = some ⟨n, n, t⟩)
    : ((∃ cause, (s.call .factorize).1 = .error ⟨kind.name, .factorization cause⟩)
        ↔ (Entries.toMatrix t.entries).det = 0)
      ∧ ((s.call .factorize).1 = .ok none ↔ (Entries.toMatrix t.entries).det ≠ 0) := by
  have fails_iff
      : (∃ cause, (kind.engine.factorize (s.bench.read number).content ()).1 = .error cause)
        ↔ (Entries.toMatrix t.entries).det = 0 := by
    rw [Workbench.read_eq held]
    exact kind.factorize_eq_error_iff t
  rw [call_factorize, bound, ne_eq, ← fails_iff]
  dsimp only
  cases (kind.engine.factorize (s.bench.read number).content ()).1 with
  | error cause => simp [Direct.engine]
  | ok factors => simp

/-- Once the assembly is factored, all right sides are answered with the only solution for as long
as the factors are in use.
-/
theorem Implements.solves (h : s.Implements stage)
    (bound : s.bench.backend.target? = some number)
    (held : s.bench.assemblies[number]? = some ⟨n, n, t⟩)
    (nonsingular : (Entries.toMatrix t.entries).det ≠ 0) {later : List (Move α)}
    (keeps : (s.move (.call .factorize)).KeepsFactors later) (transposed : Bool) {out rhs : Nat}
    (out_length : (((s.move (.call .factorize)).after later).arrays out).shape = [n])
    (rhs_length : (((s.move (.call .factorize)).after later).arrays rhs).shape = [n])
    : ∃ x : Vector α n,
        (((s.move (.call .factorize)).after later).call (.solve transposed out rhs)).1
          = .ok (some x.toList)
        ∧ ∀ v,
            (if transposed then (Entries.toMatrix t.entries)ᵀ else Entries.toMatrix t.entries) *ᵥ v
              = ((((s.move (.call .factorize)).after later).arrays rhs).toVector n).get
            ↔ v = x.get := by
  have succeeds := (factorize_iff bound held).2.mpr nonsingular
  have factored := h.move (.call .factorize)
  rw [h.factorize_ok succeeds bound, Workbench.read_eq held] at factored
  have last := factored.after later
  rw [factored.after_of_keepsFactors keeps] at last
  obtain ⟨x, answered, unique⟩ := kind.exists_answer nonsingular transposed
    ((((s.move (.call .factorize)).after later).arrays rhs).toVector n)
  refine ⟨x, ?_, unique⟩
  rw [last.answer_eq]
  simp [Stage.call, Stage.solution, out_length, rhs_length, answered, Except.map]

/-- Over an ordered field a direct engine fails to factor exactly the singular assemblies. With the
factors of any other one it answers every right side with the only solution, transposed or not,
until their use is ended. The other engine answers the same.
-/
theorem solvesExactly (kind : Direct) (arrays : Nat → Tensor α) (moves : List (Move α))
    (bound
      : ((start (kind.engine (α := α)) () arrays).after moves).bench.backend.target?
        = some number)
    (held
      : ((start (kind.engine (α := α)) () arrays).after moves).bench.assemblies[number]?
        = some ⟨n, n, t⟩)
    : let s := (start (kind.engine (α := α)) () arrays).after moves
      let factored := s.move (.call .factorize)
      let matrix := Entries.toMatrix t.entries
      0 < n
      ∧ ((∃ cause, (s.call .factorize).1 = .error ⟨kind.name, .factorization cause⟩)
          ↔ matrix.det = 0)
      ∧ ((s.call .factorize).1 = .ok none ↔ matrix.det ≠ 0)
      ∧ (matrix.det ≠ 0 →
          ∀ later,
            factored.KeepsFactors later →
            ∀ transposed out rhs,
              ((factored.after later).arrays out).shape = [n] →
              ((factored.after later).arrays rhs).shape = [n] →
              ∃ x : Vector α n,
                ((factored.after later).call (.solve transposed out rhs)).1 = .ok (some x.toList)
                ∧ ∀ v,
                    (if transposed then matrixᵀ else matrix) *ᵥ v
                      = (((factored.after later).arrays rhs).toVector n).get
                    ↔ v = x.get)
      ∧ ∀ (rival : Direct) (call : Call),
          (((start (rival.engine (α := α)) () arrays).after moves).call call).1.toOption
          = (s.call call).1.toOption := by
  intro s factored matrix
  have h := (implements_start (kind.engine (α := α)) arrays).after moves
  have failures := factorize_iff bound held
  refine ⟨?_, failures.1, failures.2, ?_, ?_⟩
  · obtain ⟨size, content, positive, found, -⟩ := h.exists_assembly bound
    rw [held] at found
    obtain ⟨rfl, -⟩ := AnyTriplet.mk.inj (Option.some.inj found)
    exact positive
  · intro nonsingular later keeps transposed out rhs out_length rhs_length
    exact h.solves bound held nonsingular keeps transposed out_length rhs_length
  · intro rival call
    have same : (start (rival.engine (α := α)) () arrays).Matches (start kind.engine () arrays) :=
      ⟨rfl, rfl⟩
    have agree : (rival.engine (α := α)).AgreesWith kind.engine := rival.engine_agreesWith kind
    obtain ⟨same_after, stages⟩ :=
      same.after agree (implements_start _ arrays) (implements_start _ arrays) moves
    have rival_h := (implements_start (rival.engine (α := α)) arrays).after moves
    rw [stages] at rival_h
    exact (same_after.call agree rival_h h call).1

/-- An assembly that needs an exchange of rows, with one place filled twice. -/
def sampleMoves : List (Move ℚ) :=
  [.make "K" 2 2 4 [(0, 1, 1), (1, 0, 2), (1, 0, 1)], .call (.attach 0 false false false)]

theorem solvesExactly_sample
    : let arrays : Nat → Tensor ℚ := fun _ => ⟨[2], [1, 6]⟩
      let s := (start (Direct.sparse.engine (α := ℚ)) () arrays).after sampleMoves
      let t : Triplet ℚ 2 2 := ⟨4, [⟨0, 1, 1⟩, ⟨1, 0, 2⟩, ⟨1, 0, 1⟩]⟩
      s.bench.backend.target? = some 0
      ∧ s.bench.assemblies[0]? = some ⟨2, 2, t⟩
      ∧ (s.call .factorize).1 = .ok none
      ∧ ∃ x : Vector ℚ 2,
          ((s.move (.call .factorize)).call (.solve true 1 0)).1 = .ok (some x.toList)
          ∧ ∀ v, (Entries.toMatrix t.entries)ᵀ *ᵥ v = (Tensor.toVector ⟨[2], [1, 6]⟩ 2).get
              ↔ v = x.get := by
  intro arrays s t
  have bound : s.bench.backend.target? = some 0 := rfl
  have held : s.bench.assemblies[0]? = some ⟨2, 2, t⟩ := rfl
  have nonsingular : (Entries.toMatrix t.entries).det ≠ 0 := by
    norm_num [Matrix.det_fin_two, Entries.toMatrix, Entry.toMatrix, Matrix.single, t]
  obtain ⟨-, -, succeeds, solved, -⟩ := solvesExactly .sparse arrays sampleMoves bound held
  exact ⟨bound, held, succeeds.mpr nonsingular,
    solved nonsingular [] trivial true 1 0 rfl rfl⟩

end Session

end InteriorPoint
