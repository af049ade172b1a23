import InteriorPoint.Backend.Direct
import InteriorPoint.Proofs.Factoring
import InteriorPoint.Proofs.Residual

/-! What one pass of a solve can do, and what follows for a run of passes. A pass stops, fails or
moves the point by one step; everything that holds at the head of each pass and survives its end
holds wherever a run ends.
-/

namespace InteriorPoint

section Induction

variable {α σ ε : Type} {engine : Engine α σ} {m n : Nat}

/-- A solver as it begins the passes of a solve. -/
def State.startedAt (y : Blocks α m n) (st : State engine m n) : State engine m n :=
  { st with point := y, history := #[], iterations := 0 }

variable [Zero α] [One α] [Add α] [Sub α] [Mul α] [Div α] [Neg α] [NatCast α] [LT α] [LE α]
  [DecidableLT α] [DecidableLE α]

/-- What holds at the head of a run, is handed on by every pass that goes on, and turns into some
other property where a pass ends or none is left, gives that property where the run ends. Both may
speak of the last gap and of the events so far. The induction is on the passes that are left; no law
of the arithmetic is used.
-/
theorem State.run_induction {p : LinearProgram α m n} {config : Config α} {watch : Watch α ε m n}
    (limit : Nat) (Head : Nat → Option α → State engine m n → Array (Event α m n) → Prop)
    (Tail : PassEnd α ε → State engine m n → Array (Event α m n) → Prop)
    (stepped
      : ∀ k last st seen gap next events,
          k < limit
          → Head k last st seen
          → st.pass p config watch k = (.stepped gap, next, events)
          → Head (k + 1) (some gap) next (seen ++ events.toArray))
    (ended
      : ∀ k last st seen how next events,
          k < limit
          → Head k last st seen
          → st.pass p config watch k = (.ended how, next, events)
          → Tail how next (seen ++ events.toArray))
    (exhausted : ∀ last st seen, Head limit last st seen → Tail (.exhausted last) st seen)
    {remaining k : Nat} {last : Option α} {st : State engine m n} {seen : Array (Event α m n)}
    (numbers : k + remaining = limit) (start : Head k last st seen)
    : Tail (st.passes p config watch remaining k last seen).1
        (st.passes p config watch remaining k last seen).2.1
        (st.passes p config watch remaining k last seen).2.2 := by
  induction remaining generalizing k last st seen with
  | zero =>
      obtain rfl : k = limit := numbers
      exact exhausted last st seen start
  | succ remaining ih =>
      have early : k < limit := by omega
      rw [passes]
      split
      · next how next events passed =>
          exact ended k last st seen how next events early start passed
      · next gap next events passed =>
          refine ih (by omega) ?_
          exact stepped k last st seen gap next events early start passed

/-- The same for properties of states alone. -/
theorem State.passes_induction {p : LinearProgram α m n} {config : Config α}
    {watch : Watch α ε m n} (Head : Nat → State engine m n → Prop)
    (Tail : PassEnd α ε → State engine m n → Prop)
    (stepped
      : ∀ k st gap next events,
          Head k st → st.pass p config watch k = (.stepped gap, next, events) → Head (k + 1) next)
    (ended
      : ∀ k st how next events,
          Head k st → st.pass p config watch k = (.ended how, next, events) → Tail how next)
    (remaining : Nat) {k : Nat} {gap : Option α} {st : State engine m n}
    {seen : Array (Event α m n)} (start : Head k st)
    (exhausted : ∀ st gap, Head (k + remaining) st → Tail (.exhausted gap) st)
    : Tail (st.passes p config watch remaining k gap seen).1
        (st.passes p config watch remaining k gap seen).2.1 := by
  refine run_induction (k + remaining) (fun k _ st _ => Head k st) (fun how st _ => Tail how st)
    ?_ ?_ ?_ rfl start
  · intro k _ st _ gap next events _ head passed
    exact stepped k st gap next events head passed
  · intro k _ st _ how next events _ head passed
    exact ended k st how next events head passed
  · intro gap st _ head
    exact exhausted st gap head

namespace State

/-- The events seen so far have no influence on how a run goes on. -/
theorem passes_seen (p : LinearProgram α m n) (config : Config α) (watch : Watch α ε m n)
    (remaining k : Nat) (last : Option α) (st : State engine m n)
    (seen more : Array (Event α m n))
    : (st.passes p config watch remaining k last seen).1
        = (st.passes p config watch remaining k last more).1
      ∧ (st.passes p config watch remaining k last seen).2.1
        = (st.passes p config watch remaining k last more).2.1 := by
  induction remaining generalizing k last st seen more with
  | zero => exact ⟨rfl, rfl⟩
  | succ remaining ih =>
      rw [passes, passes]
      split
      · exact ⟨rfl, rfl⟩
      · exact ih ..

/-- A solve without a starting point fails and leaves the point, with an empty history. -/
theorem solve_unstarted [PivotSplit α] {p : LinearProgram α m n} {fault : Definite.Fault}
    (start : p.startingPoint = .error fault) (config : Config α) (watch : Watch α ε m n)
    (st : State engine m n)
    : st.solve p config watch
      = (.failed (.start fault), { st with history := #[], iterations := 0 }, #[]) := by
  simp only [solve, toStart, start, Except.map]

/-- What a solve makes of its run of passes, whichever way that ended. -/
theorem solve_of_start [PivotSplit α] {p : LinearProgram α m n} {y : Blocks α m n}
    (start : p.startingPoint = .ok y) (config : Config α) (watch : Watch α ε m n)
    (st : State engine m n)
    : st.solve p config watch
      = let (how, next, seen) := (st.startedAt y).passes p config watch config.iterationLimit 0
          none (if watch.verbose then #[.header] else #[])
        let (final, notices) := next.release
        let events := seen ++ (notices.map Event.notice).toArray
        match how with
        | .accepted => (.converged (final.result p), final, events)
        | .exhausted gap =>
            (.unconverged config.iterationLimit gap,
              { final with iterations := config.iterationLimit }, events)
        | .failed failure => (.failed failure, final, events)
        | .interrupted e => (.interrupted e, final, events) := by
  simp only [solve, toStart, start, Except.map]
  rfl

/-- A solve that converges reports the state in which its passes ended with an accepted one. -/
theorem solve_converged [PivotSplit α] {p : LinearProgram α m n} {config : Config α}
    {watch : Watch α ε m n} {st : State engine m n} {r : Result α m n}
    (h : (st.solve p config watch).1 = .converged r)
    : ∃ y seen,
        p.startingPoint = .ok y
        ∧ ((st.startedAt y).passes p config watch config.iterationLimit 0 none seen).1 = .accepted
        ∧ r = ((st.startedAt y).passes p config watch config.iterationLimit 0 none seen).2.1.result
            p := by
  cases start : p.startingPoint with
  | error fault =>
      rw [solve_unstarted start] at h
      cases h
  | ok y =>
      rw [solve_of_start start] at h
      dsimp only at h
      split at h
      · next accepted =>
          exact ⟨y, _, rfl, accepted, (Ending.converged.inj h).symm⟩
      · simp at h
      · simp at h
      · simp at h

omit [Neg α] in
/-- A step leaves the binding of the backend and the history, since it only solves and moves. -/
theorem step_frame {st next : State engine m n} {mu : α} {taken : Step α}
    {notices : List Notice} (h : st.step mu = (.ok taken, next, notices))
    : next.backend.target? = st.backend.target? ∧ next.history = st.history := by
  obtain ⟨predicted, corrected, _, _, first, -, second, -, -, rfl⟩ := step_ok h
  obtain ⟨d, -, rfl⟩ := solveDirection_ok first
  obtain ⟨e, -, rfl⟩ := solveDirection_ok second
  refine ⟨?_, rfl⟩
  simp only [move, correct, Backend.target?_solve]

/-- The phases of a pass after its test, as far as it gets: assembly fails, the backend cannot be
made ready, the step fails, or it is taken and the observer told of it.
-/
inductive Advanced (p : LinearProgram α m n) (watch : Watch α ε m n) (record : Record α)
    (st : State engine m n) (outcome : Pass α ε) (next : State engine m n)
    (events : List (Event α m n))
    : Prop
  | unassembled (fault : Triplet.Fault) (refused : p.assemble st.point st.jacobian = .error fault)
    (outcome_eq : outcome = .ended (.failed (.assembly fault))) (next_eq : next = st)
    (events_eq : events = [])
  | unprepared (jacobian : Triplet α (n + m + n) (n + m + n)) (e : BackendError)
    (notices : List Notice) (assembled : p.assemble st.point st.jacobian = .ok jacobian)
    (prepared
      : { st with jacobian }.prepare record.iteration watch.timing = (.error e, next, notices))
    (outcome_eq : outcome = .ended (.failed (.step (.backend e))))
    (events_eq : events = notices.map .notice)
  | unstepped (jacobian : Triplet α (n + m + n) (n + m + n)) (ready : State engine m n)
    (fault : StepFault) (first second : List Notice)
    (assembled : p.assemble st.point st.jacobian = .ok jacobian)
    (prepared
      : { st with jacobian }.prepare record.iteration watch.timing = (.ok (), ready, first))
    (stepped : ready.step record.mu = (.error fault, next, second))
    (outcome_eq : outcome = .ended (.failed (.step fault)))
    (events_eq : events = (first ++ second).map .notice)
  | stepped (jacobian : Triplet α (n + m + n) (n + m + n)) (ready after : State engine m n)
    (taken : Step α) (first second : List Notice)
    (assembled : p.assemble st.point st.jacobian = .ok jacobian)
    (prepared
      : { st with jacobian }.prepare record.iteration watch.timing = (.ok (), ready, first))
    (stepped : ready.step record.mu = (.ok taken, after, second))
    (next_eq
      : next = { after with
          history := after.history.pop.push { record with step := some taken } })
    (outcome_eq
      : outcome
        = match (watch.observe { record with step := some taken } after.point).1 with
          | .ok () => .stepped record.gap
          | .error e => .ended (.interrupted e))
    (events_eq
      : events
        = (first ++ second).map .notice
          ++ (watch.observe { record with step := some taken } after.point).2)

omit [Neg α] in
/-- The part of a pass after its test goes through its phases. -/
theorem advance_phases {p : LinearProgram α m n} {watch : Watch α ε m n} {record : Record α}
    {st next : State engine m n} {outcome : Pass α ε} {events : List (Event α m n)}
    (h : st.advance p watch record = (outcome, next, events))
    : Advanced p watch record st outcome next events := by
  simp only [advance, updateJacobian] at h
  cases assembled : p.assemble st.point st.jacobian with
  | error fault =>
      simp only [assembled, Except.map] at h
      obtain ⟨rfl, rest⟩ := Prod.mk.inj h
      obtain ⟨rfl, rfl⟩ := Prod.mk.inj rest
      exact .unassembled fault assembled rfl rfl rfl
  | ok jacobian =>
      simp only [assembled, Except.map] at h
      split at h
      · next prepared =>
          obtain ⟨rfl, rest⟩ := Prod.mk.inj h
          obtain ⟨rfl, rfl⟩ := Prod.mk.inj rest
          exact .unprepared jacobian _ _ assembled prepared rfl rfl
      · next ready first prepared =>
          split at h
          · next failed =>
              obtain ⟨rfl, rest⟩ := Prod.mk.inj h
              obtain ⟨rfl, rfl⟩ := Prod.mk.inj rest
              exact .unstepped jacobian ready _ first _ assembled prepared failed rfl rfl
          · next taken after second moved =>
              obtain ⟨rfl, rest⟩ := Prod.mk.inj h
              obtain ⟨rfl, rfl⟩ := Prod.mk.inj rest
              exact .stepped jacobian ready after taken first second assembled prepared moved rfl
                rfl rfl

omit [Neg α] in
/-- The part of a pass after its test fails somewhere, or it gets through all of its phases. -/
theorem advance_cases {p : LinearProgram α m n} {watch : Watch α ε m n} {record : Record α}
    {st next : State engine m n} {outcome : Pass α ε} {events : List (Event α m n)}
    (h : st.advance p watch record = (outcome, next, events))
    : (∃ failure, outcome = .ended (.failed failure)
        ∧ next.point = st.point ∧ next.history = st.history)
      ∨ ∃ (jacobian : Triplet α (n + m + n) (n + m + n)) (ready after : State engine m n)
          (taken : Step α) (first second : List Notice),
          p.assemble st.point st.jacobian = .ok jacobian
          ∧ { st with jacobian }.prepare record.iteration watch.timing = (.ok (), ready, first)
          ∧ ready.step record.mu = (.ok taken, after, second)
          ∧ next = { after with
              history := after.history.pop.push { record with step := some taken } }
          ∧ ((∃ gap, outcome = .stepped gap) ∨ ∃ e, outcome = .ended (.interrupted e)) := by
  rcases advance_phases h with ⟨_, _, rfl, rfl, _⟩ | ⟨_, _, _, _, prepared, rfl, _⟩
    | ⟨_, _, _, _, _, _, prepared, failed, rfl, _⟩
    | ⟨jacobian, ready, after, taken, first, second, assembled, prepared, moved, next_eq, told, _⟩
  · exact .inl ⟨_, rfl, rfl, rfl⟩
  · obtain ⟨point, history⟩ := prepare_frame prepared
    exact .inl ⟨_, rfl, point, history⟩
  · obtain ⟨point, history⟩ := step_error failed
    obtain ⟨before, earlier⟩ := prepare_frame prepared
    exact .inl ⟨_, rfl, point.trans before, history.trans earlier⟩
  · refine .inr ⟨jacobian, ready, after, taken, first, second, assembled, prepared, moved, next_eq,
      ?_⟩
    split at told
    · exact .inl ⟨_, told⟩
    · exact .inr ⟨_, told⟩

end State

end Induction

variable {α σ ε : Type} [Field α] [LinearOrder α] {engine : Engine α σ} {m n : Nat}

namespace State

/-- The record that a pass notes of a state before it tests and steps. -/
def recordAt (p : LinearProgram α m n) (iteration : Nat) (st : State engine m n) : Record α :=
  (st.updateResidual p).record p iteration

/-- The three things a pass can do: it stops where it is, with the residual of its point accepted;
it fails and leaves the point; or it takes a step from a prepared state and notes that.
-/
inductive PassCase (p : LinearProgram α m n) (config : Config α) (iteration : Nat)
    (st : State engine m n) (outcome : Pass α ε) (next : State engine m n)
    : Prop
  | stopped
    (accepted : config.accepts (p.residual st.point) (st.recordAt p iteration).gap)
    (outcome_eq : outcome = .ended .accepted ∨ ∃ e, outcome = .ended (.interrupted e))
    (next_eq : next = { st.updateResidual p with
      history := st.history.push (st.recordAt p iteration)
      iterations := iteration })
  | failed (failure : Failure) (outcome_eq : outcome = .ended (.failed failure))
    (point_eq : next.point = st.point)
    (history_eq : next.history = st.history.push (st.recordAt p iteration))
  | moved (ready after : State engine m n) (taken : Step α) (notices : List Notice)
    (ready_point : ready.point = st.point)
    (prepared : iteration = 0 ∨ st.backend.target? = some .jacobian → ready.IsPrepared p)
    (bound : iteration = 0 ∨ st.backend.target? = some .jacobian
      → next.backend.target? = some .jacobian)
    (step_eq : ready.step (st.recordAt p iteration).mu = (.ok taken, after, notices))
    (outcome_eq : (∃ gap, outcome = .stepped gap) ∨ ∃ e, outcome = .ended (.interrupted e))
    (point_eq : next.point = after.point)
    (history_eq
      : next.history
        = st.history.push { st.recordAt p iteration with step := some taken })

/-- Every pass is one of the three cases. -/
theorem pass_cases {p : LinearProgram α m n} {config : Config α} {watch : Watch α ε m n}
    {iteration : Nat} {st next : State engine m n} {outcome : Pass α ε}
    {events : List (Event α m n)}
    (h : st.pass p config watch iteration = (outcome, next, events))
    : PassCase p config iteration st outcome next := by
  simp only [pass] at h
  split at h
  · next accepted =>
      obtain ⟨outcome_eq, rest⟩ := Prod.mk.inj h
      obtain ⟨rfl, -⟩ := Prod.mk.inj rest
      refine .stopped accepted ?_ rfl
      split at outcome_eq
      · exact .inl outcome_eq.symm
      · exact .inr ⟨_, outcome_eq.symm⟩
  · generalize advanced : advance p watch _ _ = result at h
    obtain ⟨reached, final, seen⟩ := result
    obtain ⟨rfl, rest⟩ := Prod.mk.inj h
    obtain ⟨rfl, -⟩ := Prod.mk.inj rest
    rcases advance_cases advanced with ⟨failure, outcome_eq, point, history⟩
      | ⟨jacobian, ready, after, taken, _, _, assembled, prepared, moved, rfl, outcome_eq⟩
    · exact .failed failure outcome_eq point history
    · have prepares (bound : iteration = 0 ∨ st.backend.target? = some .jacobian) :=
        isPrepared_of_prepare rfl assembled prepared bound
      obtain ⟨ready_point, ready_history⟩ := prepare_frame prepared
      obtain ⟨same_target, same_history⟩ := step_frame moved
      have history : after.history = st.history.push (st.recordAt p iteration) :=
        same_history.trans ready_history
      refine .moved ready after taken _ ready_point (fun bound => (prepares bound).1)
        (fun bound => same_target.trans (prepares bound).2) moved outcome_eq rfl ?_
      -- The record pushed before the test makes way for the same one with its step.
      simp only [history, Array.pop_push]
      rfl

/-- A pass notes one record after those of before. Apart from the step, which is noted once it is
taken, that is the record of the state in which the pass began.
-/
theorem PassCase.history_push {p : LinearProgram α m n} {config : Config α} {iteration : Nat}
    {st next : State engine m n} {outcome : Pass α ε}
    (h : PassCase p config iteration st outcome next)
    : ∃ record,
        next.history = st.history.push record
        ∧ { record with step := none } = st.recordAt p iteration := by
  cases h with
  | stopped _ _ next_eq => exact ⟨_, congrArg State.history next_eq, rfl⟩
  | failed _ _ _ history_eq => exact ⟨_, history_eq, rfl⟩
  | moved _ _ _ _ _ _ _ _ _ _ history_eq => exact ⟨_, history_eq, rfl⟩

end State

section Sample

/-- A computation that is found not to fail has a value. -/
theorem exists_ok {β ε : Type} {x : Except ε β} (h : x.isOk)
    : ∃ b, x = .ok b := by
  cases x with
  | error e => simp [Except.isOk, Except.toBool] at h
  | ok b => exact ⟨b, rfl⟩

/-- Whether a solve converged. -/
def Ending.isConverged {α ε : Type} {m n : Nat} : Ending α ε m n → Bool
  | .converged _ => true
  | _ => false

/-- A solve that is found to converge has a result. -/
theorem Ending.exists_converged {α ε : Type} {m n : Nat} {x : Ending α ε m n}
    (h : x.isConverged)
    : ∃ r, x = .converged r := by
  cases x with
  | converged r => exact ⟨r, rfl⟩
  | unconverged _ _ | failed _ | interrupted _ => simp [isConverged] at h

/-- The error of the backend that a solve failed with. -/
def Ending.backendError? {α ε : Type} {m n : Nat} : Ending α ε m n → Option BackendError
  | .failed (.step (.backend e)) => some e
  | _ => none

theorem Ending.eq_failed_of_backendError? {α ε : Type} {m n : Nat} {x : Ending α ε m n}
    {e : BackendError} (h : x.backendError? = some e)
    : x = .failed (.step (.backend e)) := by
  unfold backendError? at h
  split at h
  · rw [Option.some.inj h]
  · simp at h

/-- Five iterations at most, and a gap and residuals below a hundredth. -/
def Config.sample : Config ℚ where
  iterationLimit := 5
  gapTolerance := 1 / 100
  feasibilityTolerance := some (1 / 100)

/-- Nothing is shown and nobody told. -/
def Watch.silent {α : Type} {m n : Nat} : Watch α Empty m n where
  verbose := false
  timing := false
  observer := none

/-- A solver of the sample program that has not been used, with the dense engine. -/
def State.sample : State (Direct.engine .dense : Engine ℚ Unit) 1 2 :=
  .initial .sample (.fresh _ ())

/-- The same solver at a point in the interior, with the residual of that. -/
def State.samplePlaced : State (Direct.engine .dense : Engine ℚ Unit) 1 2 :=
  { sample with point := ⟨#v[1, 2], #v[0], #v[3, 1]⟩ }.updateResidual .sample

/-- There with Jacobian and factors as well. -/
def State.samplePrepared : State (Direct.engine .dense : Engine ℚ Unit) 1 2 :=
  (((samplePlaced.updateJacobian .sample).toOption.getD samplePlaced).prepare 0 false).2.1

end Sample

end InteriorPoint
