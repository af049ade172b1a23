import InteriorPoint.Proofs.ReformulatedSteps
import InteriorPoint.Proofs.Trajectory

/-! Solves of a program whose equations are combined and whose variables are in another order. Its
units are as before, and everything that a record holds is a number that knows neither combination
nor order. So two solves note the same records, at points that are counterparts, and end alike.
-/

namespace InteriorPoint

variable {α σ τ ε : Type} [Field α] [LinearOrder α] [IsStrictOrderedRing α] {engine : Engine α σ}
  {twin : Engine α τ} {m n : Nat}

-----------------------------------------------------------------------------------------
-- Records and tests
-----------------------------------------------------------------------------------------

namespace Reformulation

/-- Right side and cost keep their units. -/
structure KeepsUnits (t : Reformulation α m n) : Prop where
  primal : t.primalUnit = 1
  dual : t.dualUnit = 1

variable {t : Reformulation α m n} {p q : LinearProgram α m n}

theorem recordOf_point (takes : t.Takes p q) (keeps : t.KeepsUnits) (k : Nat) (y : Blocks α m n)
    : q.recordOf k (t.point y) = p.recordOf k y := by
  have measure := takes.measureAt_point y
  have primal := takes.objective_point y
  have dual := takes.dualObjective_point y
  simp only [keeps.primal, keeps.dual, one_mul] at measure primal dual
  have xLeast : least (t.point y).x = least y.x :=
    (least_relabel t.order t.primalUnit_pos y.x).trans (by rw [keeps.primal, one_mul])
  have sLeast : least (t.point y).s = least y.s :=
    (least_relabel t.order t.dualUnit_pos y.s).trans (by rw [keeps.dual, one_mul])
  rw [LinearProgram.recordOf, primal, dual]
  exact (Record.mk.injEq ..).mpr ⟨rfl, rfl, rfl, measure, xLeast, sLeast, rfl⟩

/-- A test of the gap alone has the same result. -/
theorem stopsAt_point (takes : t.Takes p q) (keeps : t.KeepsUnits) {config : Config α}
    (gapOnly : config.feasibilityTolerance = none) (y : Blocks α m n)
    : q.stopsAt config (t.point y) = p.stopsAt config y := by
  have gap := congrArg Record.gap (recordOf_point takes keeps 0 y)
  simp only [LinearProgram.recordOf] at gap
  simp only [LinearProgram.stopsAt, Config.accepts, gapOnly, gap]

end Reformulation

-----------------------------------------------------------------------------------------
-- Passes side by side
-----------------------------------------------------------------------------------------

/-- Two passes lead to the same, or both fail over a factorization. -/
inductive Pass.Alike : Pass α ε → Pass α ε → Prop
  | same (outcome : Pass α ε) : Alike outcome outcome
  | singular {failure other : Failure} (kind : failure.kind = .factorization)
    (kind_other : other.kind = .factorization)
    : Alike (.ended (.failed failure)) (.ended (.failed other))

/-- Two runs end in the same way, or both fail over a factorization. -/
inductive PassEnd.Alike : PassEnd α ε → PassEnd α ε → Prop
  | same (how : PassEnd α ε) : Alike how how
  | singular {failure other : Failure} (kind : failure.kind = .factorization)
    (kind_other : other.kind = .factorization)
    : Alike (.failed failure) (.failed other)

namespace Reformulation

/-- Two solvers are at counterparts, with the same records. -/
structure IsCounterpart (t : Reformulation α m n) (st : State engine m n) (other : State twin m n)
    : Prop where
  point : other.point = t.point st.point
  history : other.history = st.history
  iterations : other.iterations = st.iterations

/-- Two solvers are so before pass `k`, and ready for it. -/
structure InStep (t : Reformulation α m n) (p q : LinearProgram α m n) (k : Nat)
    (st : State engine m n) (other : State twin m n)
    : Prop
    extends t.IsCounterpart st other where
  ready : st.IsReady p k
  other_ready : other.IsReady q k

/-- The observers of two solves answer alike when they are told of counterparts. -/
def ObserversAgree (t : Reformulation α m n) (watch other : Watch α ε m n) : Prop :=
  ∀ record y, (other.observe record (t.point y)).1 = (watch.observe record y).1

omit [IsStrictOrderedRing α] in
theorem ObserversAgree.onward {t : Reformulation α m n} {watch other : Watch α ε m n}
    (agree : t.ObserversAgree watch other) (record : Record α) (y : Blocks α m n)
    (outcome : Pass α ε)
    : other.onward record (t.point y) outcome = watch.onward record y outcome := by
  rw [Watch.onward, Watch.onward, agree record y]

section Runs

variable {t : Reformulation α m n} {p q : LinearProgram α m n} {config : Config α}
  {watch other_watch : Watch α ε m n} (takes : t.Takes p q) (keeps : t.KeepsUnits) (hn : 0 < n)
  (ideal : engine.IsIdeal) (ideal' : twin.IsIdeal)
  (gapOnly : config.feasibilityTolerance = none) (agree : t.ObserversAgree watch other_watch)

include takes keeps hn ideal ideal' gapOnly agree

/-- Two solvers in step go through the same pass: they stop alike, fail alike, or take the same step
and note it in the same record.
-/
theorem InStep.pass {k : Nat} {st next : State engine m n} {other after : State twin m n}
    {outcome answer : Pass α ε} {events told : List (Event α m n)} (h : t.InStep p q k st other)
    (first : st.pass p config watch k = (outcome, next, events))
    (second : other.pass q config other_watch k = (answer, after, told))
    : outcome.Alike answer
      ∧ t.IsCounterpart next after
      ∧ ∀ gap, outcome = .stepped gap → t.InStep p q (k + 1) next after := by
  have record : q.recordOf k other.point = p.recordOf k st.point := by
    rw [h.point, recordOf_point takes keeps]
  have test : q.stopsAt config other.point = p.stopsAt config st.point := by
    rw [h.point, stopsAt_point takes keeps gapOnly]
  have regular : q.IsRegularAt other.point ↔ p.IsRegularAt st.point := by
    rw [h.point, takes.isRegularAt_point_iff]
  have second := State.exactPass_of_pass ideal' hn h.other_ready second
  cases State.exactPass_of_pass ideal hn h.ready first with
  | stopped stops outcome_eq next_eq =>
      cases second with
      | stopped _ answer_eq after_eq =>
          have same : answer = outcome := by
            rw [answer_eq, outcome_eq, record, h.point, agree.onward]
          subst same next_eq after_eq
          refine ⟨.same _, ⟨h.point, ?_, rfl⟩, fun gap goes => ?_⟩
          · show other.history.push _ = st.history.push _
            rw [h.history, record]
          · rw [outcome_eq, Watch.onward] at goes
            split at goes <;> cases goes
      | singular _ continues | moved _ _ _ continues =>
          rw [test, stops] at continues
          cases continues
  | singular failure continues irregular kind outcome_eq point_eq history_eq iterations_eq =>
      cases second with
      | stopped stops =>
          rw [test, continues] at stops
          cases stops
      | singular _ _ _ kind' answer_eq point_eq' history_eq' iterations_eq' =>
          subst outcome_eq answer_eq
          refine ⟨.singular kind kind', ⟨?_, ?_, ?_⟩, by rintro _ ⟨⟩⟩
          · rw [point_eq', point_eq, h.point]
          · rw [history_eq', history_eq, h.history, record]
          · rw [iterations_eq', iterations_eq, h.iterations]
      | moved _ _ _ _ reg => exact absurd (regular.mp reg) irregular
  | moved taken _ _ continues reg newton outcome_eq history_eq iterations_eq ready =>
      cases second with
      | stopped stops =>
          rw [test, continues] at stops
          cases stops
      | singular _ _ irregular => exact absurd (regular.mpr reg) irregular
      | moved taken' _ _ _ _ newton' answer_eq history_eq' iterations_eq' ready' =>
          obtain ⟨rfl, point⟩ := takes.sameStep h.point reg newton newton'
          have same : answer = outcome := by
            rw [answer_eq, outcome_eq, record, point, agree.onward]
          subst same
          have counterpart : t.IsCounterpart next after := by
            refine ⟨point, ?_, ?_⟩
            · rw [history_eq', history_eq, h.history, record]
            · rw [iterations_eq', iterations_eq, h.iterations]
          exact ⟨.same _, counterpart, fun _ _ => ⟨counterpart, ready, ready'⟩⟩

/-- Two solvers in step go through the same run, by induction on the passes that are left. -/
theorem InStep.passes {k : Nat} {st : State engine m n} {other : State twin m n}
    (h : t.InStep p q k st other) (remaining : Nat) (last : Option α)
    (seen told : Array (Event α m n))
    : (st.passes p config watch remaining k last seen).1.Alike
          (other.passes q config other_watch remaining k last told).1
        ∧ t.IsCounterpart (st.passes p config watch remaining k last seen).2.1
          (other.passes q config other_watch remaining k last told).2.1 := by
  induction remaining generalizing k last st other seen told with
  | zero => exact ⟨.same _, h.toIsCounterpart⟩
  | succ remaining ih =>
      generalize first : st.pass p config watch k = result
      generalize second : other.pass q config other_watch k = result'
      obtain ⟨outcome, next, events⟩ := result
      obtain ⟨answer, after, events'⟩ := result'
      obtain ⟨alike, counterpart, onward⟩ :=
        h.pass takes keeps hn ideal ideal' gapOnly agree first second
      rw [State.passes, State.passes, first, second]
      cases alike with
      | singular kind kind' => exact ⟨.singular kind kind', counterpart⟩
      | same outcome =>
          cases outcome with
          | ended how => exact ⟨.same how, counterpart⟩
          | stepped gap => exact ih (onward gap rfl) ..

end Runs

-----------------------------------------------------------------------------------------
-- Whole solves
-----------------------------------------------------------------------------------------

/-- Two solves end in the same kind of outcome: with results at counterparts and with the same
objectives, after as many iterations and with the same gap, or with failures of one kind.
-/
inductive SameOutcome (t : Reformulation α m n) : Ending α ε m n → Ending α ε m n → Prop
  | converged {r r' : Result α m n} (point : r'.point = t.point r.point)
    (objective : r'.objective = r.objective) (dualObjective : r'.dualObjective = r.dualObjective)
    (iterations : r'.iterations = r.iterations) (gap : r'.gap = r.gap)
    : SameOutcome t (.converged r) (.converged r')
  | unconverged (iterations : Nat) (gap : Option α)
    : SameOutcome t (.unconverged iterations gap) (.unconverged iterations gap)
  | failed {failure other : Failure} (kind : other.kind = failure.kind)
    : SameOutcome t (.failed failure) (.failed other)
  | interrupted (e : ε) : SameOutcome t (.interrupted e) (.interrupted e)

omit [IsStrictOrderedRing α] in
/-- What comes after the passes keeps counterparts, and two ends that are alike in the same kind of
outcome.
-/
theorem IsCounterpart.conclude {t : Reformulation α m n} {p q : LinearProgram α m n}
    (takes : t.Takes p q) (keeps : t.KeepsUnits) (config : Config α) {st : State engine m n}
    {other : State twin m n} (h : t.IsCounterpart st other) {how how' : PassEnd α ε}
    (alike : how.Alike how') (seen told : Array (Event α m n))
    : t.SameOutcome (st.conclude p config how seen).1 (other.conclude q config how' told).1
      ∧ t.IsCounterpart (st.conclude p config how seen).2.1
          (other.conclude q config how' told).2.1 := by
  obtain ⟨point, history, iterations⟩ := h
  cases alike with
  | singular kind kind' => exact ⟨.failed (kind'.trans kind.symm), point, history, iterations⟩
  | same how =>
      cases how with
      | accepted =>
          have objective : q.objective other.point = p.objective st.point := by
            rw [point, takes.objective_point, keeps.primal, keeps.dual, one_mul, one_mul]
          have dualObjective : q.dualObjective other.point = p.dualObjective st.point := by
            rw [point, takes.dualObjective_point, keeps.primal, keeps.dual, one_mul, one_mul]
          refine ⟨.converged point objective dualObjective iterations ?_, point, history,
            iterations⟩
          exact congrArg₂ relativeGap objective dualObjective
      | exhausted gap => exact ⟨.unconverged .., point, history, rfl⟩
      | failed failure => exact ⟨.failed rfl, point, history, iterations⟩
      | interrupted e => exact ⟨.interrupted e, point, history, iterations⟩

/-- Two solves start at counterparts, if they start at all, go through counterparts, note the same
records and have the same kind of outcome.
-/
structure SolvesAlike (t : Reformulation α m n) (p q : LinearProgram α m n) (config : Config α)
    (watch other_watch : Watch α ε m n) (st : State engine m n) (other : State twin m n)
    : Prop where
  outcome
    : t.SameOutcome (st.solve p config watch).1 (other.solve q config other_watch).1
  history
    : (other.solve q config other_watch).2.1.history = (st.solve p config watch).2.1.history
  iterations
    : (other.solve q config other_watch).2.1.iterations
      = (st.solve p config watch).2.1.iterations
  started : q.startingPoint.isOk = p.startingPoint.isOk
  iterates
    : ∀ y,
        p.startingPoint = .ok y
        → q.startingPoint = .ok (t.point y)
          ∧ ∀ k,
              (other.afterPasses q config other_watch (t.point y) k).point
              = t.point (st.afterPasses p config watch y k).point

/-- Combining the equations and reordering the variables changes nothing in a solve that tests the
gap alone. Only the multipliers are those of the combined equations, and the entries of variables
and slacks have other places.
-/
theorem solvesAlike (kind other : Direct) (rows : (Matrix (Fin m) (Fin m) α)ˣ)
    (order : Equiv.Perm (Fin n)) {p q : LinearProgram α m n} (takes : (ofRows rows order).Takes p q)
    (hn : 0 < n) {config : Config α} (gapOnly : config.feasibilityTolerance = none)
    {watch other_watch : Watch α ε m n}
    (agree : (ofRows rows order).ObserversAgree watch other_watch)
    {st : State (kind.engine : Engine α Unit) m n} {st' : State (other.engine : Engine α Unit) m n}
    (held : p.HoldsJacobian st.jacobian) (held' : q.HoldsJacobian st'.jacobian)
    : (ofRows rows order).SolvesAlike p q config watch other_watch st st' := by
  have keeps : (ofRows rows order : Reformulation α m n).KeepsUnits := ⟨rfl, rfl⟩
  have ideal : (kind.engine : Engine α Unit).IsIdeal := Direct.engine_isIdeal kind
  have ideal' : (other.engine : Engine α Unit).IsIdeal := Direct.engine_isIdeal other
  rcases takes.startingPoint_cases with ⟨y, start, start'⟩ | ⟨_, _, start, start'⟩
  · have inStep : (ofRows rows order).InStep p q 0 (st.startedAt y)
        (st'.startedAt ((ofRows rows order).point y)) := {
      point := rfl
      history := rfl
      iterations := rfl
      ready := State.isReady_startedAt held y
      other_ready := State.isReady_startedAt held' _
    }
    have runs (limit : Nat) (seen told : Array (Event α m n)) :=
      inStep.passes takes keeps hn ideal ideal' gapOnly agree limit none seen told
    obtain ⟨alike, counterpart⟩ := runs config.iterationLimit
      (if watch.verbose then #[.header] else #[]) (if other_watch.verbose then #[.header] else #[])
    obtain ⟨outcome, -, history, iterations⟩ := counterpart.conclude takes keeps config alike _ _
    refine ⟨?_, ?_, ?_, by rw [start, start']; rfl, ?_⟩
    · rw [State.solve_eq_conclude start, State.solve_eq_conclude start']
      exact outcome
    · rw [State.solve_eq_conclude start, State.solve_eq_conclude start']
      exact history
    · rw [State.solve_eq_conclude start, State.solve_eq_conclude start']
      exact iterations
    · intro z found
      obtain rfl := Except.ok.inj (start.symm.trans found)
      exact ⟨start', fun k => (runs k #[] #[]).2.point⟩
  · have ends := State.solve_unstarted start config watch st
    have ends' := State.solve_unstarted start' config other_watch st'
    refine ⟨?_, ?_, ?_, by rw [start, start']; rfl, ?_⟩
    · rw [ends, ends']
      exact .failed rfl
    · rw [ends, ends']
    · rw [ends, ends']
    · intro y found
      rw [start] at found
      cases found

-----------------------------------------------------------------------------------------
-- A program in other words
-----------------------------------------------------------------------------------------

section Sample

/-- Minimise `x₀ + 3 x₁ + x₂` subject to `x₀ + x₁ = 2`, `x₁ + x₂ = 2` and `x ≥ 0`. -/
def twoEquations : LinearProgram ℚ 2 3 where
  matrix := .ofMatrix !![1, 1, 0; 0, 1, 1]
  rightSide := #v[2, 2]
  cost := #v[1, 3, 1]

/-- The second equation is subtracted from twice the first one. -/
def combination : (Matrix (Fin 2) (Fin 2) ℚ)ˣ where
  val := !![2, -1; 0, 1]
  inv := !![1 / 2, 1 / 2; 0, 1]
  val_inv := by decide +kernel
  inv_val := by decide +kernel

/-- A gap below a tenth, after three passes at most. -/
def threePasses : Config ℚ where
  iterationLimit := 3
  gapTolerance := 1 / 10
  feasibilityTolerance := none

/-- The two equations combined, with the variables in the opposite order, solved with the other
direct engine. The solve converges.
-/
theorem solvesAlike_twoEquations
    : let t : Reformulation ℚ 2 3 := ofRows combination Fin.revPerm
      let st : State (Direct.engine .dense : Engine ℚ Unit) 2 3 :=
        .initial twoEquations (.fresh _ ())
      let other : State (Direct.engine .sparse : Engine ℚ Unit) 2 3 :=
        .initial (t.program twoEquations) (.fresh _ ())
      (st.solve twoEquations threePasses (.silent : Watch ℚ Empty 2 3)).1.isConverged
      ∧ t.SolvesAlike twoEquations (t.program twoEquations) threePasses .silent
          (.silent : Watch ℚ Empty 2 3) st other := by
  refine ⟨by decide +kernel, ?_⟩
  exact solvesAlike .dense .sparse combination Fin.revPerm (takes_program _ _) (by decide) rfl
    (fun _ _ => rfl) .empty .empty

end Sample

end Reformulation

end InteriorPoint
