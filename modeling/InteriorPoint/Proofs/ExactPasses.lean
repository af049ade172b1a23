import InteriorPoint.Proofs.ExactSteps
import InteriorPoint.Proofs.NoBreakdown
import InteriorPoint.Proofs.Restart
import InteriorPoint.Report.Kind

/-! Passes of an engine that is exact and reliable. What such an engine makes of a Jacobian is
decided by the Jacobian alone: it refuses the singular ones, and with all others the step is the one
and only Newton step of the point.
-/

namespace InteriorPoint

open scoped Matrix

variable {α σ ε : Type} {engine : Engine α σ} {m n : Nat}

-----------------------------------------------------------------------------------------
-- Jacobian, factors and step
-----------------------------------------------------------------------------------------

section Cycle

variable [Zero α] [One α] [Add α] [Sub α] [Mul α] [Div α] [Neg α] [NatCast α] [LT α] [LE α]
  [DecidableLT α] [DecidableLE α]

/-- What a pass leads to once the observer has answered. -/
def Watch.onward (watch : Watch α ε m n) (record : Record α) (point : Blocks α m n)
    (outcome : Pass α ε)
    : Pass α ε :=
  match (watch.observe record point).1 with
  | .ok () => outcome
  | .error e => .ended (.interrupted e)

/-- What a pass does between its test and its observer: Jacobian, factors and step. -/
def State.cycle (p : LinearProgram α m n) (iteration : Nat) (timing : Bool) (mu : α)
    (st : State engine m n)
    : Except Failure (Step α) × State engine m n × List Notice :=
  match st.updateJacobian p with
  | .error fault => (.error (.assembly fault), st, [])
  | .ok st =>
      match st.prepare iteration timing with
      | (.error e, st, notices) => (.error (.step (.backend e)), st, notices)
      | (.ok (), st, notices) =>
          match st.step mu with
          | (.error fault, st, more) => (.error (.step fault), st, notices ++ more)
          | (.ok taken, st, more) => (.ok taken, st, notices ++ more)

omit [Neg α] in
/-- After that a pass notes the step and tells the observer, or it fails. -/
theorem State.Advanced.cycle {p : LinearProgram α m n} {watch : Watch α ε m n}
    {record : Record α} {st next : State engine m n} {outcome : Pass α ε}
    {events : List (Event α m n)} (h : Advanced p watch record st outcome next events)
    : (∃ failure notices,
          st.cycle p record.iteration watch.timing record.mu = (.error failure, next, notices)
          ∧ outcome = .ended (.failed failure))
      ∨ ∃ taken after notices,
          st.cycle p record.iteration watch.timing record.mu = (.ok taken, after, notices)
          ∧ next = { after with
              history := after.history.pop.push { record with step := some taken } }
          ∧ outcome
            = watch.onward { record with step := some taken } after.point
                (.stepped record.gap) := by
  rcases h with ⟨fault, refused, rfl, rfl, _⟩ | ⟨jacobian, e, notices, assembled, prepared, rfl, _⟩
    | ⟨jacobian, ready, fault, one, two, assembled, prepared, failed, rfl, _⟩
    | ⟨jacobian, ready, after, taken, one, two, assembled, prepared, stepped, rfl, rfl, _⟩
  · exact .inl ⟨_, [], by simp only [State.cycle, updateJacobian, refused, Except.map], rfl⟩
  · refine .inl ⟨_, notices, ?_, rfl⟩
    simp only [State.cycle, updateJacobian, assembled, Except.map, prepared]
  · refine .inl ⟨_, one ++ two, ?_, rfl⟩
    simp only [State.cycle, updateJacobian, assembled, Except.map, prepared, failed]
  · refine .inr ⟨taken, after, one ++ two, ?_, rfl, rfl⟩
    simp only [State.cycle, updateJacobian, assembled, Except.map, prepared, stepped]

end Cycle

-----------------------------------------------------------------------------------------
-- What an exact engine makes of it
-----------------------------------------------------------------------------------------

variable [Field α] [LinearOrder α]

/-- An engine that solves exactly what it solves, and fails on singular matrices alone. -/
structure Engine.IsIdeal (engine : Engine α σ) : Prop where
  exact : engine.IsExact
  reliable : engine.IsReliable

/-- The direct engines are ideal over an ordered field. -/
theorem Direct.engine_isIdeal [IsStrictOrderedRing α] (kind : Direct)
    : (kind.engine : Engine α Unit).IsIdeal :=
  ⟨engine_isExact kind, engine_isReliable kind⟩

namespace State

omit [LinearOrder α] in
/-- Of a singular Jacobian an exact engine that answers every system has no factors. -/
theorem HasFactorsAt.isRegularAt (ideal : engine.IsIdeal)
    {p : LinearProgram α m n} {y : Blocks α m n} {st : State engine m n}
    (factored : st.HasFactorsAt p y)
    : p.IsRegularAt y := by
  obtain ⟨t, jacobian, target, factors, before, after, assembled, made, -⟩ := factored
  have onto : Function.Surjective (Entries.toMatrix jacobian.entries).mulVec := by
    intro b
    obtain ⟨x, left, answered⟩ := ideal.reliable.solves factors false (Vector.ofFn b) after
    refine ⟨x.get, ?_⟩
    have solved := ideal.exact jacobian before after factors made _ _ _ _ answered
    rwa [get_ofFn] at solved
  have unit := Matrix.mulVec_surjective_iff_isUnit.mp onto
  rw [LinearProgram.entries_of_assemble assembled] at unit
  exact ((Matrix.isUnit_iff_isUnit_det _).mp unit).ne_zero

/-- The two things that can happen between the test of a pass and its observer: the engine refuses a
singular Jacobian, or the point moves by a Newton step and the backend stays bound to the Jacobian.
-/
inductive CycleCase (p : LinearProgram α m n) (mu : α) (st : State engine m n)
    : Except Failure (Step α) → State engine m n → Prop
  | singular {e : BackendError} {next : State engine m n} (singular : ¬p.IsRegularAt st.point)
    (blames : engine.Blames e .factorization) (point_eq : next.point = st.point)
    : CycleCase p mu st (.error (.step (.backend e))) next
  | stepped {taken : Step α} {next : State engine m n} (affine final : Blocks α m n)
    (regular : p.IsRegularAt st.point)
    (newton : p.IsNewtonStep st.point mu affine final taken next.point)
    (bound : next.backend.target? = some .jacobian)
    : CycleCase p mu st (.ok taken) next

/-- What is not changed between the test of a pass and its observer. -/
structure KeepsRecords (st next : State engine m n) : Prop where
  history : next.history = st.history
  iterations : next.iterations = st.iterations
  capacity : next.jacobian.capacity = st.jacobian.capacity

/-- A state that is ready for a pass: it has room for the Jacobian, to which its backend is bound
from the second pass on.
-/
structure IsReady (p : LinearProgram α m n) (k : Nat) (st : State engine m n) : Prop where
  room : p.jacobianCapacity ≤ st.jacobian.capacity
  bound : k = 0 ∨ st.backend.target? = some .jacobian

omit [LinearOrder α] in
/-- Every solver is ready for the first pass, whatever has been made with its Jacobian before. -/
theorem isReady_startedAt {p : LinearProgram α m n} {st : State engine m n}
    (held : p.HoldsJacobian st.jacobian) (y : Blocks α m n)
    : (st.startedAt y).IsReady p 0 :=
  ⟨held.capacity_eq.ge, .inl rfl⟩

/-- A state that is ready for a pass and holds the residual of its point. -/
structure IsSetFor (p : LinearProgram α m n) (k : Nat) (st : State engine m n) : Prop
    extends st.IsReady p k where
  residual_eq : st.residual = p.residual st.point

/-- From such a state one of the two happens. -/
theorem IsSetFor.cycle_cases (ideal : engine.IsIdeal) (hn : 0 < n) {p : LinearProgram α m n}
    {st : State engine m n} {iteration : Nat} (set : st.IsSetFor p iteration) (timing : Bool)
    (mu : α)
    : CycleCase p mu st (st.cycle p iteration timing mu).1
        (st.cycle p iteration timing mu).2.1
      ∧ st.KeepsRecords (st.cycle p iteration timing mu).2.1 := by
  obtain ⟨⟨room, bound⟩, residual_eq⟩ := set
  let jacobian : Triplet α (n + m + n) (n + m + n) :=
    { st.jacobian with entries := p.matrix.jacobianEntries st.point.x st.point.s }
  let placed : State engine m n := { st with jacobian }
  have assembled : p.assemble st.point st.jacobian = .ok jacobian := p.assemble_eq st.point room
  have update : st.updateJacobian p = .ok placed := congrArg (Except.map _) assembled
  rw [cycle, update]
  dsimp only
  generalize prepared : placed.prepare iteration timing = outcome
  obtain ⟨e | made, ready, notices⟩ := outcome
  · -- A reliable engine would have factored a nonsingular Jacobian.
    have singular : ¬p.IsRegularAt st.point := by
      intro regular
      have succeeds := prepare_succeeds ideal.reliable hn placed bound regular timing
      rw [prepared] at succeeds
      cases succeeds
    have blames := (prepare_spends hn (by exact bound) prepared).2 e rfl
    have leaves := prepare_leaves prepared
    refine ⟨.singular singular blames ?_, ?_⟩
    · rw [leaves]
    · rw [leaves]
      exact ⟨rfl, rfl, rfl⟩
  · obtain ⟨ready_prepared, target⟩ := isPrepared_of_prepare residual_eq assembled prepared bound
    have leaves := prepare_leaves prepared
    have point : ready.point = st.point := by rw [leaves]
    obtain ⟨_, _, _, _, _, _, _, _, phase⟩ := ready_prepared.factored
    obtain ⟨taken, done⟩ := step_succeeds ideal.reliable phase mu
    dsimp only
    generalize stepped : ready.step mu = outcome at done ⊢
    obtain ⟨_, next, more⟩ := outcome
    obtain rfl : _ = Except.ok taken := done
    have newton := step_isNewtonStep ideal.exact ready_prepared stepped
    have regular := ready_prepared.factored.isRegularAt ideal
    rw [point] at newton regular
    constructor
    · exact .stepped _ _ regular newton ((step_frame stepped).1.trans target)
    · rw [step_leaves stepped, leaves]
      exact ⟨rfl, rfl, rfl⟩

end State

-----------------------------------------------------------------------------------------
-- A whole pass
-----------------------------------------------------------------------------------------

omit [Field α] [LinearOrder α] in
/-- An engine that is blamed for a factorization makes a failure of that kind. -/
theorem Engine.Blames.kind_eq {e : BackendError} (blames : engine.Blames e .factorization)
    : (Failure.step (.backend e)).kind = .factorization := by
  rw [Failure.kind, BackendError.kind, blames.stage_eq]

namespace State

/-- The three things that a pass can do where arithmetic and engine are exact: it stops at a point
that passes the test, it fails over a singular Jacobian, or it moves by a Newton step.
-/
inductive ExactPass (p : LinearProgram α m n) (config : Config α) (watch : Watch α ε m n) (k : Nat)
    (st : State engine m n) (outcome : Pass α ε) (next : State engine m n)
    : Prop
  | stopped (stops : p.stopsAt config st.point = true)
    (outcome_eq
      : outcome = watch.onward (p.recordOf k st.point) st.point (.ended .accepted))
    (next_eq
      : next = { st with
          residual := p.residual st.point
          history := st.history.push (p.recordOf k st.point)
          iterations := k })
  | singular (failure : Failure) (continues : p.stopsAt config st.point = false)
    (irregular : ¬p.IsRegularAt st.point) (kind : failure.kind = .factorization)
    (outcome_eq : outcome = .ended (.failed failure)) (point_eq : next.point = st.point)
    (history_eq : next.history = st.history.push (p.recordOf k st.point))
    (iterations_eq : next.iterations = st.iterations)
  | moved (taken : Step α) (affine final : Blocks α m n)
    (continues : p.stopsAt config st.point = false) (regular : p.IsRegularAt st.point)
    (newton : p.IsNewtonStep st.point (p.measureAt st.point) affine final taken next.point)
    (outcome_eq
      : outcome
        = watch.onward { p.recordOf k st.point with step := some taken } next.point
            (.stepped (p.recordOf k st.point).gap))
    (history_eq
      : next.history = st.history.push { p.recordOf k st.point with step := some taken })
    (iterations_eq : next.iterations = st.iterations)
    (ready : next.IsReady p (k + 1))

/-- Every pass of a state that is ready for it is one of the three. -/
theorem exactPass_of_pass (ideal : engine.IsIdeal) (hn : 0 < n)
    {p : LinearProgram α m n} {config : Config α} {watch : Watch α ε m n} {k : Nat}
    {st next : State engine m n} {outcome : Pass α ε} {events : List (Event α m n)}
    (ready : st.IsReady p k) (h : st.pass p config watch k = (outcome, next, events))
    : ExactPass p config watch k st outcome next := by
  let noted : State engine m n := { st with
    residual := p.residual st.point
    history := st.history.push (p.recordOf k st.point) }
  obtain ⟨_, _, _, _, ⟨stops, next_eq, outcome_eq, _⟩ | ⟨continues, advanced⟩⟩ :=
    pass_phases h
  · have told : outcome = watch.onward (p.recordOf k st.point) st.point (.ended .accepted) := by
      rw [outcome_eq, Watch.onward]
      cases (watch.observe (p.recordOf k st.point) st.point).1 <;> rfl
    exact .stopped stops told next_eq
  · have set : noted.IsSetFor p k := ⟨⟨ready.room, ready.bound⟩, rfl⟩
    obtain ⟨made, keeps⟩ := set.cycle_cases ideal hn watch.timing (p.measureAt st.point)
    rcases advanced.cycle with ⟨failure, notices, cycle, rfl⟩
      | ⟨taken, after, notices, cycle, rfl, rfl⟩
    · change noted.cycle p k watch.timing (p.measureAt st.point) = _ at cycle
      rw [cycle] at made keeps
      obtain ⟨history, iterations, -⟩ := keeps
      cases made with
      | singular irregular blames point =>
          exact .singular _ continues irregular blames.kind_eq rfl point history iterations
    · change noted.cycle p k watch.timing (p.measureAt st.point) = _ at cycle
      rw [cycle] at made keeps
      obtain ⟨history, iterations, capacity⟩ := keeps
      cases made with
      | stepped affine final regular newton target =>
          have noted_history : after.history = st.history.push (p.recordOf k st.point) := history
          refine .moved taken affine final continues regular newton rfl ?_ iterations ?_
          · simp only [noted_history, Array.pop_push]
          · exact ⟨capacity ▸ ready.room, .inr target⟩

end State

end InteriorPoint
