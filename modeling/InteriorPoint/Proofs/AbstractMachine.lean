import InteriorPoint.Backend.Direct
import InteriorPoint.Proofs.Assembly
import InteriorPoint.Proofs.Sessions

/-! A backend behaves like the abstract machine. Its factors are always those of the matrix that the
machine remembers, so both give the same answers along every session, and the factors in use come
from the last factorization that succeeded.
-/

namespace InteriorPoint

section Editing

variable {α σ : Type} {engine : Engine α σ}

namespace Workbench

/-- Neither a new assembly nor an edit touches the backend. -/
theorem make_ok {w next : Workbench engine} {name : String} {rows cols capacity : Int}
    {entries : List (Int × Int × α)}
    (made : w.make name rows cols capacity entries = .ok next)
    : next.backend = w.backend ∧ ∃ t, next.assemblies = w.assemblies ++ [t] := by
  obtain ⟨empty, -, rest⟩ := bind_ok made
  obtain ⟨content, -, done⟩ := bind_ok rest
  obtain rfl := Except.ok.inj done
  exact ⟨rfl, _, rfl⟩

theorem edit_ok {w next : Workbench engine} {number : Nat} {command : Triplet.Command α}
    (edited : w.edit number command = .ok next)
    : next.backend = w.backend
        ∧ ∀ k : Nat,
            (next.assemblies[k]?).map AnyTriplet.shape
            = (w.assemblies[k]?).map AnyTriplet.shape := by
  simp only [Workbench.edit] at edited
  cases found : w.assemblies[number]? with
  | none =>
      simp only [found] at edited
      obtain rfl := Except.ok.inj edited
      exact ⟨rfl, fun _ => rfl⟩
  | some t =>
      simp only [found] at edited
      obtain ⟨content, -, rfl⟩ := map_ok edited
      refine ⟨rfl, fun k => ?_⟩
      obtain ⟨inside, at_number⟩ := List.getElem?_eq_some_iff.mp found
      by_cases same : number = k
      · subst same
        simp [inside, at_number, AnyTriplet.shape]
      · simp [List.getElem?_set_ne same]

/-- A square assembly is read as it is. -/
theorem read_eq {w : Workbench engine} {number size : Nat} {t : Triplet α size size}
    (held : w.assemblies[number]? = some ⟨size, size, t⟩)
    : w.read number = ⟨size, t⟩ := by
  simp [read, held, AnyTriplet.square?]

end Workbench

end Editing

variable {α : Type} [Zero α] [Sub α] [LE α] [DecidableLE α] {engine : Engine α Unit}

-----------------------------------------------------------------------------------------
-- What an operation answers and what it leaves
-----------------------------------------------------------------------------------------

/-- A backend is as far as the machine, and its factors are those of the matrix that the machine
knows.
-/
inductive Stage.Represents (engine : Engine α Unit) : Phase engine Nat → Stage α → Prop
  | released : Represents engine .released .released
  | bound (number : Nat) : Represents engine (.bound number) (.bound number)
  | factored (number : Nat) (matrix : SquareTriplet α) (factors : engine.Factors matrix.size)
    (made : (engine.factorize matrix.content ()).1 = .ok factors)
    : Represents engine (.factorized number matrix.size factors) (.factored number matrix)

namespace Backend

variable {τ : Type} {b : Backend engine τ}

/-- An engine without a state is left by a solve as it was, and so is the backend. -/
theorem backend_solveInto (b : Backend engine τ) (transposed : Bool) (out rhs : Tensor α)
    : (b.solveInto transposed out rhs).backend = b := by
  have with_factors {size : Nat} (factors : engine.Factors size) (v : Vector α size)
      : (b.solveWith factors transposed v).backend = b := by
    simp only [solveWith]
    split
    · rfl
    · split <;> rfl
  simp only [solveInto]
  split
  · split
    · exact with_factors _ _
    · rfl
  · rfl

/-- A backend that is as far as the machine gives the solution of the machine. -/
theorem result_solveInto {b : Backend engine Nat} {stage : Stage α}
    (h : stage.Represents engine b.phase) (transposed : Bool) (out rhs : Tensor α)
    : (b.solveInto transposed out rhs).result = stage.solution engine transposed out rhs := by
  generalize phase : b.phase = reached at h
  simp only [solveInto, phase]
  cases h with
  | released => rfl
  | bound number => rfl
  | factored number matrix factors made =>
      simp only [Stage.solution]
      split
      · simp only [solveWith, Engine.answer, made]
        generalize engine.solve factors transposed (rhs.toVector matrix.size) _ = answered
        obtain ⟨_ | x, _⟩ := answered
        · rfl
        · cases finite : allFinite x <;> simp [finite, refuse, Except.map]
      · rfl

end Backend

namespace Session

variable {s : Session engine} {stage : Stage α}

/-- A matrix that is square and not empty is bound, with no factors yet; any other one is refused
without a trace.
-/
theorem call_attach (s : Session engine) (number : Nat) (symmetric verbose timing : Bool)
    : s.call (.attach number symmetric verbose timing)
      = if (s.shape number).1 = (s.shape number).2 ∧ 0 < (s.shape number).1 then
          (.ok none, s.withBackend ⟨(), .bound number, symmetric, verbose, timing⟩)
        else
          (.error ⟨engine.name, .notSquare (s.shape number).1 (s.shape number).2⟩, s) := by
  simp only [call, Backend.attach]
  split
  · next refused =>
      have unfit : ¬((s.shape number).1 = (s.shape number).2 ∧ 0 < (s.shape number).1) := by
        omega
      rw [if_neg unfit]
      rfl
  · next accepted =>
      have fits : (s.shape number).1 = (s.shape number).2 ∧ 0 < (s.shape number).1 := by omega
      rw [if_pos fits]
      rfl

/-- A bound backend is left with factors of what its assembly holds now, or bound without any. -/
theorem call_factorize (s : Session engine)
    : s.call .factorize
      = match s.bench.backend.target? with
        | none => (.error ⟨engine.name, .factorizeUnbound⟩, s)
        | some number =>
            match (engine.factorize (s.bench.read number).content ()).1 with
            | .error cause =>
                (.error ⟨engine.name, .factorization cause⟩,
                  s.withBackend { s.bench.backend with phase := .bound number })
            | .ok factors =>
                (.ok none,
                  s.withBackend { s.bench.backend with
                    phase := .factorized number (s.bench.read number).size factors }) := by
  simp only [call, Backend.factorize]
  cases s.bench.backend.target? with
  | none => rfl
  | some number =>
      dsimp only
      generalize engine.factorize (s.bench.read number).content _ = made
      obtain ⟨_ | _, _⟩ := made <;> rfl

/-- A solve writes its solution to one array, and that is all it leaves. -/
theorem call_solve_snd (s : Session engine) (transposed : Bool) (out rhs : Nat)
    : (s.call (.solve transposed out rhs)).2
      = match (s.call (.solve transposed out rhs)).1 with
        | .ok (some values) =>
            { s with arrays := Function.update s.arrays out ⟨(s.arrays out).shape, values⟩ }
        | _ => s := by
  simp only [call, Backend.backend_solveInto]
  cases (s.bench.backend.solveInto transposed (s.arrays out) (s.arrays rhs)).result <;> rfl

/-- A release leaves nothing but the flags, and leaves a released backend as it is. -/
theorem call_release (s : Session engine)
    : s.call .release = (.ok none, s.withBackend { s.bench.backend with phase := .released }) := by
  simp only [call, Backend.release]
  split
  · next released =>
      rw [← released]
      rfl
  · rfl

-----------------------------------------------------------------------------------------
-- The machine beside a session
-----------------------------------------------------------------------------------------

/-- The backend is as far as the machine, and what it is bound to is square and not empty. -/
structure Implements (s : Session engine) (stage : Stage α) : Prop where
  represents : stage.Represents engine s.bench.backend.phase
  square
    : ∀ number ∈ s.bench.backend.target?,
        (s.shape number).1 = (s.shape number).2 ∧ 0 < (s.shape number).1

omit [Zero α] [Sub α] [LE α] [DecidableLE α] in
theorem Implements.target?_eq (h : s.Implements stage)
    : s.bench.backend.target? = stage.number? := by
  have represents := h.represents
  simp only [Backend.target?]
  generalize s.bench.backend.phase = phase at represents ⊢
  cases represents <;> rfl

/-- Backend and machine answer every call alike. -/
theorem Implements.answer_eq (h : s.Implements stage) (call : Call)
    : (s.call call).1 = (stage.call engine s.surroundings call).1 := by
  cases call with
  | attach number symmetric verbose timing =>
      simp only [call_attach, Stage.call]
      by_cases fits : (s.shape number).1 = (s.shape number).2 ∧ 0 < (s.shape number).1
      · rw [if_pos fits, if_pos fits]
      · rw [if_neg fits, if_neg fits]
  | factorize =>
      simp only [call_factorize, Stage.call, h.target?_eq]
      cases stage.number? with
      | none => rfl
      | some number =>
          dsimp only
          cases (engine.factorize (s.bench.read number).content ()).1 <;> rfl
  | solve transposed out rhs =>
      simp only [Session.call, Stage.call]
      rw [Backend.result_solveInto h.represents]
  | release =>
      rw [call_release]
      rfl

/-- A call leads both on to the same stage. -/
theorem Implements.call (h : s.Implements stage) (call : Call)
    : (s.call call).2.Implements (stage.call engine s.surroundings call).2 := by
  cases call with
  | attach number symmetric verbose timing =>
      simp only [call_attach, Stage.call]
      by_cases fits : (s.shape number).1 = (s.shape number).2 ∧ 0 < (s.shape number).1
      · rw [if_pos fits, if_pos fits]
        refine ⟨.bound number, ?_⟩
        rintro _ ⟨⟩
        exact fits
      · rw [if_neg fits, if_neg fits]
        exact h
  | factorize =>
      simp only [call_factorize, Stage.call]
      have square := h.square
      rw [h.target?_eq] at square ⊢
      cases bound : stage.number? with
      | none => exact h
      | some number =>
          have fits := square number bound
          cases made : (engine.factorize (s.bench.read number).content ()).1 with
          | error cause =>
              simp only [made]
              refine ⟨.bound number, ?_⟩
              rintro _ ⟨⟩
              exact fits
          | ok factors =>
              simp only [made]
              refine ⟨.factored number _ factors made, ?_⟩
              rintro _ ⟨⟩
              exact fits
  | solve transposed out rhs =>
      rw [call_solve_snd]
      split
      · exact ⟨h.represents, h.square⟩
      · exact h
  | release =>
      rw [call_release]
      exact ⟨.released, by rintro _ ⟨⟩⟩

omit [Zero α] [Sub α] [LE α] [DecidableLE α] in
/-- What the machine is bound to is an assembly of a square matrix that is not empty, and its
content is what a factorization reads.
-/
theorem Implements.exists_assembly (h : s.Implements stage) {number : Nat}
    (bound : number ∈ s.bench.backend.target?)
    : ∃ size t,
        0 < size
        ∧ s.bench.assemblies[number]? = some ⟨size, size, t⟩
        ∧ s.bench.read number = ⟨size, t⟩ := by
  obtain ⟨square, positive⟩ := h.square number bound
  simp only [shape] at square positive
  cases found : s.bench.assemblies[number]? with
  | none => simp [found] at positive
  | some t =>
      obtain ⟨rows, cols, content⟩ := t
      rw [found] at square positive
      obtain rfl : rows = cols := square
      exact ⟨rows, content, positive, rfl, Workbench.read_eq found⟩

/-- A move leads both on to the same stage: moves that are no calls neither touch the backend nor
the shape of an assembly that is there.
-/
theorem Implements.move (h : s.Implements stage) (next : Move α)
    : (s.move next).Implements (stage.move engine s.surroundings next) := by
  cases next with
  | make name rows cols capacity entries =>
      simp only [Session.move, Stage.move]
      cases made : s.bench.make name rows cols capacity entries with
      | error fault => exact h
      | ok bench =>
          obtain ⟨backend, t, assemblies⟩ := Workbench.make_ok made
          refine ⟨backend ▸ h.represents, fun number bound => ?_⟩
          change number ∈ bench.backend.target? at bound
          rw [backend] at bound
          obtain ⟨size, content, positive, found, -⟩ := h.exists_assembly bound
          have inside := (List.getElem?_eq_some_iff.mp found).1
          have kept : bench.assemblies[number]? = some ⟨size, size, content⟩ := by
            rw [assemblies, List.getElem?_append_left inside, found]
          simp [shape, AnyTriplet.shape, Except.toOption, kept, positive]
  | edit number command =>
      simp only [Session.move, Stage.move]
      cases edited : s.bench.edit number command with
      | error fault => exact h
      | ok bench =>
          obtain ⟨backend, shapes⟩ := Workbench.edit_ok edited
          refine ⟨backend ▸ h.represents, fun number bound => ?_⟩
          change number ∈ bench.backend.target? at bound
          rw [backend] at bound
          simp only [shape, Except.toOption, Option.getD_some, shapes]
          exact h.square number bound
  | fill number array => exact ⟨h.represents, h.square⟩
  | call call => exact h.call call

/-- So do any number of moves. -/
theorem Implements.after (h : s.Implements stage) (moves : List (Move α))
    : (s.after moves).Implements (stage.after s moves) := by
  induction moves generalizing s stage with
  | nil => exact h
  | cons next rest ih => exact ih (h.move next)

-----------------------------------------------------------------------------------------
-- Where the factors come from
-----------------------------------------------------------------------------------------

/-- A move that does not end the use of factors leaves the machine where it is. -/
theorem Implements.move_of_keeps (h : s.Implements stage) {next : Move α}
    (keeps : ¬s.EndsFactors next)
    : stage.move engine s.surroundings next = stage := by
  cases next with
  | make | edit | fill => rfl
  | call call =>
      cases call with
      | attach number symmetric verbose timing =>
          simp only [EndsFactors, h.answer_eq, Stage.call] at keeps
          simp only [Stage.move, Stage.call]
          by_cases fits : (s.shape number).1 = (s.shape number).2 ∧ 0 < (s.shape number).1
          · exact absurd (by rw [if_pos fits]) keeps
          · rw [if_neg fits]
      | solve transposed out rhs => rfl
      | factorize | release => exact absurd trivial keeps

/-- Factors are kept for as long as no move ends their use. -/
theorem Implements.after_of_keepsFactors (h : s.Implements stage) {moves : List (Move α)}
    (keeps : s.KeepsFactors moves)
    : stage.after s moves = stage := by
  induction moves generalizing s with
  | nil => rfl
  | cons next rest ih =>
      have stays := h.move_of_keeps keeps.1
      have h := h.move next
      simp only [Stage.after]
      rw [stays] at h ⊢
      exact ih h keeps.2

/-- A factorization succeeds where the machine knows the matrix after it. -/
theorem Implements.factorize_ok (h : s.Implements stage)
    (succeeds : (s.call .factorize).1 = .ok none) {number : Nat}
    (bound : s.bench.backend.target? = some number)
    : stage.move engine s.surroundings (.call .factorize)
      = .factored number (s.bench.read number) := by
  rw [h.answer_eq] at succeeds
  simp only [Stage.move, Stage.call, ← h.target?_eq, bound] at succeeds ⊢
  cases made : (engine.factorize (s.bench.read number).content ()).1 with
  | error cause => simp [made] at succeeds
  | ok factors => rfl

/-- A move that ends the use of factors makes new ones only if it is a factorization that
succeeds.
-/
theorem Implements.move_of_ends (h : s.Implements stage) {next : Move α} {number : Nat}
    {matrix : SquareTriplet α} (ends : s.EndsFactors next)
    (leads : stage.move engine s.surroundings next = .factored number matrix)
    : next = .call .factorize
      ∧ s.bench.backend.target? = some number
      ∧ s.bench.read number = matrix
      ∧ (s.call .factorize).1 = .ok none := by
  cases next with
  | make | edit | fill => exact ends.elim
  | call call =>
      cases call with
      | attach number symmetric verbose timing =>
          simp only [EndsFactors, h.answer_eq, Stage.call] at ends
          simp only [Stage.move, Stage.call] at leads
          split at leads
          · cases leads
          · next unfit => simp [unfit] at ends
      | solve transposed out rhs => exact ends.elim
      | release => cases leads
      | factorize =>
          refine ⟨rfl, ?_⟩
          rw [h.answer_eq, h.target?_eq]
          simp only [Stage.move, Stage.call] at leads ⊢
          cases bound : stage.number? with
          | none =>
              rw [bound] at leads
              subst leads
              cases bound
          | some target =>
              rw [bound] at leads
              dsimp only at leads ⊢
              split at leads
              · cases leads
              · next factors made =>
                  obtain ⟨rfl, rfl⟩ := Stage.factored.inj leads
                  exact ⟨rfl, rfl, rfl⟩

/-- The matrix that the machine knows after some moves is one that it knew before them and that
they keep, or one that was factored among them.
-/
theorem Implements.factoredSince (h : s.Implements stage) {moves : List (Move α)} {number : Nat}
    {matrix : SquareTriplet α} (leads : stage.after s moves = .factored number matrix)
    : (stage = .factored number matrix ∧ s.KeepsFactors moves)
      ∨ s.FactoredSince moves number matrix := by
  induction moves generalizing s stage with
  | nil => exact .inl ⟨leads, trivial⟩
  | cons next rest ih =>
      rcases ih (h.move next) leads with ⟨known, keeps⟩ | made
      · by_cases ends : s.EndsFactors next
        · obtain ⟨rfl, bound, read, succeeds⟩ := h.move_of_ends ends known
          exact .inr ⟨[], rest, rfl, bound, read, succeeds, keeps⟩
        · rw [h.move_of_keeps ends] at known
          exact .inl ⟨known, ends, keeps⟩
      · obtain ⟨earlier, later, rfl, made⟩ := made
        exact .inr ⟨next :: earlier, later, rfl, made⟩

end Session

theorem Stage.after_append (stage : Stage α) (s : Session engine) (earlier later : List (Move α))
    : stage.after s (earlier ++ later)
      = (stage.after s earlier).after (s.after earlier) later := by
  induction earlier generalizing s stage with
  | nil => rfl
  | cons next rest ih => exact ih _ _

namespace Session

variable {s : Session engine} {stage : Stage α}

/-- The machine knows exactly the matrix that was factored last, if its use was not ended. -/
theorem Implements.after_released_iff (h : s.Implements .released) (moves : List (Move α))
    (number : Nat) (matrix : SquareTriplet α)
    : Stage.after s .released moves = .factored number matrix
      ↔ s.FactoredSince moves number matrix := by
  constructor
  · intro leads
    rcases h.factoredSince leads with ⟨known, -⟩ | made
    · cases known
    · exact made
  · rintro ⟨earlier, later, rfl, bound, read, succeeds, keeps⟩
    have before := h.after earlier
    rw [Stage.after_append]
    simp only [Stage.after]
    rw [(before.move _).after_of_keepsFactors keeps, before.factorize_ok succeeds bound, read]

-----------------------------------------------------------------------------------------
-- What a session keeps to
-----------------------------------------------------------------------------------------

/-- All that a session has in common with the machine, and what its calls leave behind. -/
structure FollowsMachine (s : Session engine) (stage : Stage α) : Prop where
  /-- The factors at hand are those of the matrix that the machine knows. -/
  represents : stage.Represents engine s.bench.backend.phase
  /-- The machine and the backend answer every call alike. -/
  answer_eq : ∀ call, (s.call call).1 = (stage.call engine s.surroundings call).1
  isInitialized_iff : s.bench.backend.isInitialized ↔ ∃ number, stage.number? = some number
  isFactorized_iff : s.bench.backend.isFactorized ↔ ∃ number matrix, stage = .factored number matrix
  isInitialized_of_isFactorized : s.bench.backend.isFactorized → s.bench.backend.isInitialized
  /-- What is bound is square and not empty, and a factorization reads what it holds. -/
  exists_assembly
    : ∀ number,
        stage.number? = some number →
        ∃ size t,
          0 < size
          ∧ s.bench.assemblies[number]? = some ⟨size, size, t⟩
          ∧ s.bench.read number = ⟨size, t⟩
  /-- A binding that is refused leaves all as it was. -/
  refused_attach
    : ∀ number symmetric verbose timing,
        (s.shape number).1 ≠ (s.shape number).2 ∨ (s.shape number).1 = 0 →
        s.call (.attach number symmetric verbose timing)
        = (.error ⟨engine.name, .notSquare (s.shape number).1 (s.shape number).2⟩, s)
  /-- A factorization that fails leaves the binding without factors. -/
  failed_factorize
    : ∀ e,
        (s.call .factorize).1 = .error e →
        (stage.number? = none ∧ (s.call .factorize).2 = s)
        ∨ ∃ number,
            stage.number? = some number
            ∧ (s.call .factorize).2
              = s.withBackend { s.bench.backend with phase := .bound number }
  /-- A solve that fails leaves all as it was. -/
  failed_solve
    : ∀ transposed out rhs e,
        (s.call (.solve transposed out rhs)).1 = .error e →
        (s.call (.solve transposed out rhs)).2 = s
  /-- A solve that succeeds changes the values of one array. -/
  solved
    : ∀ transposed out rhs x,
        (s.call (.solve transposed out rhs)).1 = .ok x →
        ∃ values,
          x = some values
          ∧ (s.call (.solve transposed out rhs)).2
            = { s with arrays := Function.update s.arrays out ⟨(s.arrays out).shape, values⟩ }
  /-- The right side may be the place of the solution. -/
  solve_in_place
    : ∀ transposed out rhs,
        (s.arrays out).shape = (s.arrays rhs).shape →
        (s.call (.solve transposed rhs rhs)).1 = (s.call (.solve transposed out rhs)).1
  /-- A release succeeds, and a second one leaves all as the first did. -/
  release_release
    : (s.call .release).1 = .ok none
      ∧ (s.call .release).2.call .release = s.call .release

/-- The shape of a result has no influence on the solution but through its length. -/
theorem Implements.solve_in_place (h : s.Implements stage) (transposed : Bool) (out rhs : Nat)
    (shapes : (s.arrays out).shape = (s.arrays rhs).shape)
    : (s.call (.solve transposed rhs rhs)).1 = (s.call (.solve transposed out rhs)).1 := by
  simp only [h.answer_eq, Stage.call, Stage.solution, shapes]

theorem Implements.failed_factorize (h : s.Implements stage) {e : BackendError}
    (fails : (s.call .factorize).1 = .error e)
    : (stage.number? = none ∧ (s.call .factorize).2 = s)
      ∨ ∃ number,
          stage.number? = some number
          ∧ (s.call .factorize).2
            = s.withBackend { s.bench.backend with phase := .bound number } := by
  rw [call_factorize] at fails ⊢
  rw [h.target?_eq] at fails ⊢
  cases bound : stage.number? with
  | none => exact .inl ⟨rfl, rfl⟩
  | some number =>
      refine .inr ⟨number, rfl, ?_⟩
      rw [bound] at fails
      dsimp only at fails ⊢
      split at fails
      · rfl
      · cases fails

theorem Implements.solved (h : s.Implements stage) {transposed : Bool} {out rhs : Nat}
    {x : Option (List α)} (succeeds : (s.call (.solve transposed out rhs)).1 = .ok x)
    : ∃ values,
        stage.solution engine transposed (s.arrays out) (s.arrays rhs) = .ok values
        ∧ x = some values
        ∧ (s.call (.solve transposed out rhs)).2
          = { s with arrays := Function.update s.arrays out ⟨(s.arrays out).shape, values⟩ } := by
  rw [call_solve_snd, succeeds]
  rw [h.answer_eq] at succeeds
  obtain ⟨values, solution, rfl⟩ := map_ok succeeds
  exact ⟨values, solution, rfl, rfl⟩

theorem Implements.follows (h : s.Implements stage)
    : s.FollowsMachine stage where
  represents := h.represents
  answer_eq := h.answer_eq
  isInitialized_iff := by
    simp only [Backend.isInitialized, h.target?_eq, Option.isSome_iff_exists]
  isFactorized_iff := by
    have represents := h.represents
    simp only [Backend.isFactorized]
    generalize s.bench.backend.phase = phase at represents ⊢
    cases represents <;> simp
  isInitialized_of_isFactorized := by
    simp only [Backend.isFactorized, Backend.isInitialized, Backend.target?]
    cases s.bench.backend.phase <;> simp
  exists_assembly number bound := h.exists_assembly (h.target?_eq.trans bound)
  refused_attach number symmetric verbose timing unfit := by
    rw [call_attach, if_neg (by omega)]
  failed_factorize _ fails := h.failed_factorize fails
  failed_solve transposed out rhs e fails := by
    rw [call_solve_snd, fails]
  solved transposed out rhs x succeeds := by
    obtain ⟨values, -, rest⟩ := h.solved succeeds
    exact ⟨values, rest⟩
  solve_in_place := h.solve_in_place
  release_release := by simp [call_release, withBackend]

omit [Zero α] [Sub α] [LE α] [DecidableLE α] in
theorem implements_start (engine : Engine α Unit) (arrays : Nat → Tensor α)
    : (start engine () arrays).Implements .released where
  represents := .released
  square := by rintro _ ⟨⟩

end Session

/-- The machine has a solution only for the matrix that it knows, and only if the lengths fit. -/
theorem Stage.solution_ok {stage : Stage α} {transposed : Bool} {out rhs : Tensor α}
    {values : List α} (succeeds : stage.solution engine transposed out rhs = .ok values)
    : ∃ number matrix z,
        stage = .factored number matrix
        ∧ out.shape = [matrix.size]
        ∧ rhs.shape = [matrix.size]
        ∧ engine.answer matrix transposed (rhs.toVector matrix.size) = .ok z
        ∧ values = z.toList := by
  cases stage with
  | released | bound => cases succeeds
  | factored number matrix =>
      simp only [Stage.solution] at succeeds
      split at succeeds
      · next lengths =>
          cases answered : engine.answer matrix transposed (rhs.toVector matrix.size) with
          | error fault => simp [answered] at succeeds
          | ok z =>
              rw [answered] at succeeds
              exact ⟨number, matrix, z, rfl, lengths.1, lengths.2, answered,
                (Except.ok.inj succeeds).symm⟩
      · cases succeeds

namespace Session

section Engines

variable {α : Type} [Zero α] [Add α] [Sub α] [Mul α] [Div α] [Neg α] [LT α] [LE α]
  [DecidableLT α] [DecidableLE α]

/-- A direct engine behaves like the machine after every session, and the matrix that the machine
knows is the one of the last factorization that succeeded, unless a later move ended its use.
Solutions are given for that matrix alone, whatever was edited in the meantime.
-/
theorem followsMachine (kind : Direct) (arrays : Nat → Tensor α) (moves : List (Move α))
    : let first : Session (kind.engine (α := α)) := start kind.engine () arrays
      let s := first.after moves
      let stage := Stage.after first .released moves
      s.FollowsMachine stage
      ∧ (∀ number matrix,
          stage = .factored number matrix ↔ first.FactoredSince moves number matrix)
      ∧ ∀ transposed out rhs x,
          (s.call (.solve transposed out rhs)).1 = .ok x →
          ∃ number matrix z,
            first.FactoredSince moves number matrix
            ∧ (s.arrays out).shape = [matrix.size]
            ∧ (s.arrays rhs).shape = [matrix.size]
            ∧ kind.engine.answer matrix transposed ((s.arrays rhs).toVector matrix.size) = .ok z
            ∧ x = some z.toList := by
  intro first s stage
  have h := (implements_start kind.engine arrays).after moves
  have known := (implements_start kind.engine arrays).after_released_iff moves
  refine ⟨h.follows, known, fun transposed out rhs x succeeds => ?_⟩
  obtain ⟨values, solution, rfl, -⟩ := h.solved succeeds
  obtain ⟨number, matrix, z, at_stage, rest⟩ := Stage.solution_ok solution
  obtain ⟨out_length, rhs_length, answered, rfl⟩ := rest
  exact ⟨number, matrix, z, (known number matrix).mp at_stage, out_length, rhs_length, answered,
    rfl⟩

end Engines

end Session
end InteriorPoint
