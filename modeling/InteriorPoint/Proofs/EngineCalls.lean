import InteriorPoint.Backend.Monitored
import InteriorPoint.Proofs.Passes

/-! The calls that reach an engine. Every phase of a pass has a known number of them, whatever
the engine answers, and where a phase fails the error says which call went wrong.
-/

namespace InteriorPoint

variable {α σ τ : Type} {engine : Engine α σ} {m n : Nat}

-----------------------------------------------------------------------------------------
-- Numbers of calls
-----------------------------------------------------------------------------------------

namespace Engine

/-- Numbers that can be read off the state of an engine and that follow its calls. -/
structure IsCountedBy (engine : Engine α σ) (counts : σ → Counts) : Prop where
  factorize
    : ∀ {size : Nat} (t : Triplet α size size) (state : σ),
        counts (engine.factorize t state).2
        = { counts state with factorizations := (counts state).factorizations + 1 }
  solve
    : ∀ {size : Nat} (factors : engine.Factors size) (transposed : Bool) (rhs : Vector α size)
        (state : σ),
        counts (engine.solve factors transposed rhs state).2
        = { counts state with solves := (counts state).solves + 1 }
  release
    : ∀ state : σ,
        counts (engine.release state)
        = { counts state with releases := (counts state).releases + 1 }

/-- The numbers of an engine under observation follow its calls, also those that are made to
fail.
-/
theorem monitored_isCountedBy (engine : Engine α σ) (plan : Plan)
    : (engine.monitored plan).IsCountedBy Prod.snd := by
  refine ⟨?_, ?_, ?_⟩
  · intro size t state
    simp only [monitored]
    split <;> rfl
  · intro size factors transposed rhs state
    simp only [monitored]
    split <;> rfl
  · intro state
    rfl

/-- From one state of an engine to another there were so many factorizations and so many solves,
as whoever counts them can tell.
-/
def Spends (engine : Engine α σ) (before after : σ) (factorizations solves : Nat) : Prop :=
  ∀ counts,
    engine.IsCountedBy counts →
    (counts after).factorizations = (counts before).factorizations + factorizations
    ∧ (counts after).solves = (counts before).solves + solves

namespace Spends

theorem refl (state : σ)
    : engine.Spends state state 0 0 :=
  fun _ _ => ⟨rfl, rfl⟩

theorem trans {before between after : σ} {factorizations more solves further : Nat}
    (first : engine.Spends before between factorizations solves)
    (second : engine.Spends between after more further)
    : engine.Spends before after (factorizations + more) (solves + further) := by
  intro counts counted
  obtain ⟨factorized, solved⟩ := first counts counted
  obtain ⟨factorized_again, solved_again⟩ := second counts counted
  omega

theorem factorize {size : Nat} (t : Triplet α size size) (state : σ)
    : engine.Spends state (engine.factorize t state).2 1 0 := by
  intro counts counted
  rw [counted.factorize]
  exact ⟨rfl, rfl⟩

theorem solve {size : Nat} (factors : engine.Factors size) (transposed : Bool)
    (rhs : Vector α size) (state : σ)
    : engine.Spends state (engine.solve factors transposed rhs state).2 0 1 := by
  intro counts counted
  rw [counted.solve]
  exact ⟨rfl, rfl⟩

theorem release (state : σ)
    : engine.Spends state (engine.release state) 0 0 := by
  intro counts counted
  rw [counted.release]
  exact ⟨rfl, rfl⟩

end Spends

/-- An error of a backend that goes with an engine, and the stage at which it came up. -/
structure Blames (engine : Engine α σ) (e : BackendError) (stage : BackendError.Stage) : Prop where
  backend_eq : e.backend = engine.name
  stage_eq : e.stage = stage

end Engine

-----------------------------------------------------------------------------------------
-- Calls in the life of a backend
-----------------------------------------------------------------------------------------

namespace Backend

theorem spends_release (b : Backend engine τ)
    : engine.Spends b.state b.release.backend.state 0 0 := by
  simp only [release]
  split
  · exact .refl _
  · exact .release _

theorem target?_release (b : Backend engine τ)
    : b.release.backend.target? = none := by
  cases phase : b.phase with
  | released => simp only [release, target?, phase]
  | bound | factorized => simp only [release, target?, phase]

/-- A square matrix that is not empty is accepted, and the engine has no part in that but the
release of the one before.
-/
theorem attach_spends (b : Backend engine τ) (target : τ) {size : Nat} (positive : 0 < size)
    (symmetric verbose timing : Bool)
    : (b.attach target size size symmetric verbose timing).result = .ok ()
      ∧ engine.Spends b.state
          (b.attach target size size symmetric verbose timing).backend.state 0 0 := by
  have accepted : ¬(size ≠ size ∨ size = 0) := by omega
  rw [attach, if_neg accepted]
  exact ⟨rfl, b.spends_release⟩

/-- Factoring calls the engine once if there is something to factor. -/
theorem factorize_spends {b : Backend engine τ} {target : τ} (bound : b.target? = some target)
    (read : τ → SquareTriplet α)
    : engine.Spends b.state (b.factorize read).backend.state 1 0
      ∧ ∀ e, (b.factorize read).result = .error e → engine.Blames e .factorization := by
  have once
      : engine.Spends b.state (engine.factorize (read target).content b.state).2 1 0 :=
    .factorize _ _
  simp only [factorize, bound]
  generalize engine.factorize (read target).content b.state = made at once
  obtain ⟨cause | factors, state⟩ := made
  · refine ⟨once, ?_⟩
    rintro _ ⟨⟩
    exact ⟨rfl, rfl⟩
  · refine ⟨once, ?_⟩
    rintro _ ⟨⟩

variable [Zero α] [Sub α] [LE α] [DecidableLE α]

/-- Solving with factors of the length of the right side calls the engine once. -/
theorem solve_spends {b : Backend engine τ} {target : τ} {size : Nat}
    {factors : engine.Factors size} (phase : b.phase = .factorized target size factors)
    (transposed : Bool) (rhs : Vector α size)
    : engine.Spends b.state (b.solve transposed rhs).backend.state 0 1
      ∧ ∀ e, (b.solve transposed rhs).result = .error e → engine.Blames e .solve := by
  have once
      : engine.Spends b.state (engine.solve factors transposed rhs b.state).2 0 1 :=
    .solve _ _ _ _
  simp only [solve, phase, dif_pos, solveWith]
  generalize engine.solve factors transposed rhs b.state = answered at once
  obtain ⟨cause | x, state⟩ := answered
  · refine ⟨once, ?_⟩
    rintro _ ⟨⟩
    exact ⟨rfl, rfl⟩
  · dsimp only
    split
    · refine ⟨once, ?_⟩
      rintro _ ⟨⟩
    · refine ⟨once, ?_⟩
      rintro _ ⟨⟩
      exact ⟨rfl, rfl⟩

end Backend

-----------------------------------------------------------------------------------------
-- Calls in the phases of a pass
-----------------------------------------------------------------------------------------

/-- A centering parameter that is refused is one that overflows. -/
theorem centering_error [Zero α] [One α] [Sub α] [Mul α] [Div α] [LT α] [LE α] [DecidableLT α]
    [DecidableLE α] {mu affine : α} {fault : StepFault}
    (h : centering mu affine = .error fault)
    : fault = .overflow := by
  simp only [centering] at h
  split at h
  · split at h
    · exact (Except.error.inj h).symm
    · cases h
  · cases h

namespace State

/-- Preparing calls the engine once, to factor the Jacobian. -/
theorem prepare_spends {st next : State engine m n} {iteration : Nat} {timing : Bool}
    {result : Except BackendError Unit} {notices : List Notice} (hn : 0 < n)
    (bound : iteration = 0 ∨ st.backend.target? = some .jacobian)
    (h : st.prepare iteration timing = (result, next, notices))
    : engine.Spends st.backend.state next.backend.state 1 0
      ∧ ∀ e, result = .error e → engine.Blames e .factorization := by
  simp only [prepare] at h
  by_cases first : iteration = 0
  · have size : 0 < n + m + n := by omega
    obtain ⟨accepted, none_spent⟩ :=
      st.backend.attach_spends Target.jacobian size false false timing
    have attached := Backend.attach_ok accepted
    simp only [if_pos first, attach, accepted] at h
    obtain ⟨rfl, rest⟩ := Prod.mk.inj h
    obtain ⟨rfl, -⟩ := Prod.mk.inj rest
    obtain ⟨once, blames⟩ := Backend.factorize_spends attached (State.read _)
    exact ⟨none_spent.trans once, blames⟩
  · have attached := bound.resolve_left first
    simp only [if_neg first] at h
    obtain ⟨rfl, rest⟩ := Prod.mk.inj h
    obtain ⟨rfl, -⟩ := Prod.mk.inj rest
    exact Backend.factorize_spends attached (State.read _)

variable [Zero α] [Sub α] [LE α] [DecidableLE α]

/-- A solve for the direction calls the engine once and keeps the factors. -/
theorem solveDirection_spends {st next : State engine m n} {target : Target α}
    {factors : engine.Factors (n + m + n)} {result : Except BackendError Unit}
    {notices : List Notice} (phase : st.backend.phase = .factorized target (n + m + n) factors)
    (h : st.solveDirection = (result, next, notices))
    : engine.Spends st.backend.state next.backend.state 0 1
      ∧ next.backend.phase = st.backend.phase
      ∧ ∀ e, result = .error e → engine.Blames e .solve := by
  obtain ⟨once, blames⟩ := Backend.solve_spends phase false st.residual.flatten
  simp only [solveDirection] at h
  split at h
  · next e fails =>
      obtain ⟨rfl, rest⟩ := Prod.mk.inj h
      obtain ⟨rfl, -⟩ := Prod.mk.inj rest
      refine ⟨once, Backend.phase_solve .., ?_⟩
      rintro _ ⟨⟩
      exact blames e fails
  · obtain ⟨rfl, rest⟩ := Prod.mk.inj h
    obtain ⟨rfl, -⟩ := Prod.mk.inj rest
    refine ⟨once, Backend.phase_solve .., ?_⟩
    rintro _ ⟨⟩

variable [One α] [Add α] [Mul α] [Div α] [NatCast α] [LT α] [DecidableLT α]

/-- A step calls the engine for two solves. If the backend makes it fail, that was the first or
the second of them.
-/
theorem step_spends {st next : State engine m n} {target : Target α}
    {factors : engine.Factors (n + m + n)} {mu : α} {result : Except StepFault (Step α)}
    {notices : List Notice} (phase : st.backend.phase = .factorized target (n + m + n) factors)
    (h : st.step mu = (result, next, notices))
    : (∀ taken, result = .ok taken → engine.Spends st.backend.state next.backend.state 0 2)
      ∧ ∀ e,
          result = .error (.backend e) →
          engine.Blames e .solve
          ∧ ∃ solves,
              (solves = 1 ∨ solves = 2)
              ∧ engine.Spends st.backend.state next.backend.state 0 solves := by
  simp only [step] at h
  split at h
  · next solved =>
      obtain ⟨once, -, blames⟩ := solveDirection_spends phase solved
      obtain ⟨rfl, rest⟩ := Prod.mk.inj h
      obtain ⟨rfl, -⟩ := Prod.mk.inj rest
      refine ⟨by rintro _ ⟨⟩, ?_⟩
      rintro _ ⟨⟩
      exact ⟨blames _ rfl, 1, .inl rfl, once⟩
  · next predicted _ solved =>
      obtain ⟨once, kept, -⟩ := solveDirection_spends phase solved
      split at h
      · next fault centered =>
          obtain ⟨rfl, -⟩ := Prod.mk.inj h
          refine ⟨by rintro _ ⟨⟩, ?_⟩
          rintro _ ⟨⟩
          exact absurd (centering_error centered) (by simp)
      · next sigma _ =>
          have kept : (predicted.correct sigma mu).backend.phase = .factorized target _ factors :=
            kept.trans phase
          split at h
          · next again =>
              obtain ⟨twice, -, blames⟩ := solveDirection_spends kept again
              obtain ⟨rfl, rest⟩ := Prod.mk.inj h
              obtain ⟨rfl, -⟩ := Prod.mk.inj rest
              refine ⟨by rintro _ ⟨⟩, ?_⟩
              rintro _ ⟨⟩
              exact ⟨blames _ rfl, 2, .inr rfl, once.trans twice⟩
          · next again =>
              obtain ⟨twice, -, -⟩ := solveDirection_spends kept again
              obtain ⟨rfl, rest⟩ := Prod.mk.inj h
              obtain ⟨rfl, -⟩ := Prod.mk.inj rest
              refine ⟨fun _ _ => once.trans twice, ?_⟩
              rintro _ ⟨⟩

end State

end InteriorPoint
