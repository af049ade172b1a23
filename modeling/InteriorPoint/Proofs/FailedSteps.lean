import InteriorPoint.Proofs.Overflow
import InteriorPoint.Proofs.Protocol

/-! What a failed step leaves behind, for any arithmetic and any engine. A step writes to the
direction, to the products in the residual and at last to the point, with a solve before each of the
first and the last. So wherever it fails, the iterate and what belongs to it are still there, and a
solve that ends with an error leaves the point that its last record is about.
-/

namespace InteriorPoint

variable {α σ ε τ : Type} {engine : Engine α σ} {m n : Nat}

-----------------------------------------------------------------------------------------
-- Solves for the direction
-----------------------------------------------------------------------------------------

section Direction

variable [Zero α] [Sub α] [LE α] [DecidableLE α]

namespace State

/-- A solve for the direction leaves all of the backend but the state of its engine. -/
theorem backend_solveDirection {st next : State engine m n} {result : Except BackendError Unit}
    {notices : List Notice} (h : st.solveDirection = (result, next, notices))
    : next.backend = { st.backend with state := next.backend.state } := by
  have leaves := st.backend.solve_leaves false st.residual.flatten
  simp only [solveDirection] at h
  split at h
  · obtain ⟨rfl, -⟩ := Prod.mk.inj (Prod.mk.inj h).2
    exact leaves
  · obtain ⟨rfl, -⟩ := Prod.mk.inj (Prod.mk.inj h).2
    exact leaves

/-- The direction is written once the solve has succeeded. -/
theorem direction_solveDirection_error {st next : State engine m n} {e : BackendError}
    {notices : List Notice} (h : st.solveDirection = (.error e, next, notices))
    : next.direction = st.direction := by
  simp only [solveDirection] at h
  split at h
  · obtain ⟨rfl, -⟩ := Prod.mk.inj (Prod.mk.inj h).2
    rfl
  · simp at h

end State

end Direction

-----------------------------------------------------------------------------------------
-- One step
-----------------------------------------------------------------------------------------

variable [Zero α] [One α] [Add α] [Sub α] [Mul α] [Div α] [Neg α] [NatCast α] [LT α] [LE α]
  [DecidableLT α] [DecidableLE α]

namespace State

/-- What is left of a state: the point with the violations of the equations there, the Jacobian, the
records, and a backend with the same factors and flags.
-/
structure KeepsIterate (st next : State engine m n) : Prop where
  point_eq : next.point = st.point
  residual_x : next.residual.x = st.residual.x
  residual_lam : next.residual.lam = st.residual.lam
  jacobian_eq : next.jacobian = st.jacobian
  history_eq : next.history = st.history
  iterations_eq : next.iterations = st.iterations
  backend_eq : next.backend = { st.backend with state := next.backend.state }
  isInitialized_eq : next.backend.isInitialized = st.backend.isInitialized
  isFactorized_eq : next.backend.isFactorized = st.backend.isFactorized

namespace KeepsIterate

omit [Zero α] [One α] [Add α] [Sub α] [Mul α] [Div α] [Neg α] [NatCast α] [LT α] [LE α]
  [DecidableLT α] [DecidableLE α]

theorem trans {st between next : State engine m n} (first : st.KeepsIterate between)
    (second : between.KeepsIterate next)
    : st.KeepsIterate next where
  point_eq := second.point_eq.trans first.point_eq
  residual_x := second.residual_x.trans first.residual_x
  residual_lam := second.residual_lam.trans first.residual_lam
  jacobian_eq := second.jacobian_eq.trans first.jacobian_eq
  history_eq := second.history_eq.trans first.history_eq
  iterations_eq := second.iterations_eq.trans first.iterations_eq
  backend_eq := by
    rw [second.backend_eq, first.backend_eq]
  isInitialized_eq := second.isInitialized_eq.trans first.isInitialized_eq
  isFactorized_eq := second.isFactorized_eq.trans first.isFactorized_eq

end KeepsIterate

omit [One α] [Add α] [Mul α] [Div α] [Neg α] [NatCast α] [LT α] [DecidableLT α] in
/-- A solve for the direction keeps the iterate, whether it succeeds or not. -/
theorem keepsIterate_solveDirection {st next : State engine m n}
    {result : Except BackendError Unit} {notices : List Notice}
    (h : st.solveDirection = (result, next, notices))
    : st.KeepsIterate next := by
  have leaves := solveDirection_leaves h
  have backend := backend_solveDirection h
  exact {
    point_eq := by rw [leaves]
    residual_x := by rw [leaves]
    residual_lam := by rw [leaves]
    jacobian_eq := by rw [leaves]
    history_eq := by rw [leaves]
    iterations_eq := by rw [leaves]
    backend_eq := backend
    isInitialized_eq := by
      rw [backend]
      rfl
    isFactorized_eq := by
      rw [backend]
      rfl
  }

omit [Zero α] [One α] [Div α] [Neg α] [NatCast α] [LT α] [LE α] [DecidableLT α]
  [DecidableLE α] in
/-- The corrector changes the products alone. -/
theorem keepsIterate_correct (st : State engine m n) (sigma mu : α)
    : st.KeepsIterate (st.correct sigma mu) := by
  constructor <;> rfl

omit [Neg α] in
/-- Wherever a step fails, the iterate is kept; the direction and the products are as well if that
is before the end of the first solve.
-/
theorem FailedStep.keeps {st next : State engine m n} {mu : α} {fault : StepFault}
    (h : st.FailedStep mu fault next)
    : st.KeepsIterate next
      ∧ ((∃ e, st.solveDirection.1 = .error e)
        → next.direction = st.direction ∧ next.residual = st.residual) := by
  cases h with
  | predictor e notices fault_eq refused =>
      refine ⟨keepsIterate_solveDirection refused, fun _ => ?_⟩
      refine ⟨direction_solveDirection_error refused, ?_⟩
      rw [solveDirection_leaves refused]
  | centering notices predicted refused =>
      refine ⟨keepsIterate_solveDirection predicted, ?_⟩
      rintro ⟨e, failed⟩
      rw [predicted] at failed
      cases failed
  | corrector e sigma predicted first second fault_eq solved centered refused =>
      refine ⟨?_, ?_⟩
      · exact (keepsIterate_solveDirection solved).trans
          ((predicted.keepsIterate_correct sigma mu).trans (keepsIterate_solveDirection refused))
      · rintro ⟨e, failed⟩
        rw [solved] at failed
        cases failed

-----------------------------------------------------------------------------------------
-- One pass
-----------------------------------------------------------------------------------------

variable {p : LinearProgram α m n} {config : Config α} {watch : Watch α ε m n}

/-- Where a pass fails, the point is the one it began with, the violations in the residual are those
of that point, and the record of it is the last one.
-/
structure FailsAt (p : LinearProgram α m n) (k : Nat) (st next : State engine m n) : Prop where
  point_eq : next.point = st.point
  residual_x : next.residual.x = (p.residual st.point).x
  residual_lam : next.residual.lam = (p.residual st.point).lam
  history_eq : next.history = st.history.push (p.recordOf k st.point)
  iterations_eq : next.iterations = st.iterations

/-- A pass that fails does so in the assembly, in the backend or in the step. -/
theorem pass_failsAt {st next : State engine m n} {k : Nat} {failure : Failure}
    {events : List (Event α m n)}
    (passed : st.pass p config watch k = (.ended (.failed failure), next, events))
    : st.FailsAt p k next := by
  obtain ⟨_, _, -, -, ⟨_, _, outcome, _⟩ | ⟨-, advanced⟩⟩ := pass_phases passed
  · split at outcome <;> cases outcome
  · rcases advanced with ⟨_, _, _, rfl, _⟩ | ⟨_, _, _, _, prepared, _⟩
      | ⟨_, ready, _, _, _, _, prepared, failed, _⟩ | ⟨_, _, _, _, _, _, _, _, _, _, outcome, _⟩
    · constructor <;> rfl
    · rw [prepare_leaves prepared]
      constructor <;> rfl
    · have kept := (step_failedStep failed).keeps.1
      rw [prepare_leaves prepared] at kept
      exact ⟨kept.point_eq, kept.residual_x, kept.residual_lam, kept.history_eq,
        kept.iterations_eq⟩
    · split at outcome <;> cases outcome

/-- A pass that goes on has noted one record more. -/
theorem size_history_of_stepped {st next : State engine m n} {k : Nat} {gap : α}
    {events : List (Event α m n)}
    (passed : st.pass p config watch k = (.stepped gap, next, events))
    : next.history.size = st.history.size + 1 := by
  obtain ⟨_, _, -, -, ⟨_, _, outcome, _⟩ | ⟨-, advanced⟩⟩ := pass_phases passed
  · cases outcome
  · rcases advanced with ⟨_, _, outcome, _⟩ | ⟨_, _, _, _, _, outcome, _⟩
      | ⟨_, _, _, _, _, _, _, _, outcome, _⟩
      | ⟨_, ready, after, taken, _, _, _, prepared, moved, rfl, _⟩
    · cases outcome
    · cases outcome
    · cases outcome
    · have history : after.history = st.history.push (p.recordOf k st.point) := by
        rw [step_leaves moved, prepare_leaves prepared]
      simp [history]

-----------------------------------------------------------------------------------------
-- A run and a solve
-----------------------------------------------------------------------------------------

/-- So have all passes that lead from one to another. -/
theorem LeadsTo.size_history {j k : Nat} {last st : State engine m n}
    (h : LeadsTo p config watch j last k st)
    : last.history.size + k = st.history.size + j := by
  induction h with
  | here => rfl
  | onward passed _ ih =>
      have one := size_history_of_stepped passed
      omega

/-- A run that fails does so in one of its passes, to which the others lead; by induction on the
passes left.
-/
theorem passes_failed {failure : Failure} (remaining k : Nat) (gap : Option α)
    (st : State engine m n) (seen : Array (Event α m n))
    (failed : (st.passes p config watch remaining k gap seen).1 = .failed failure)
    : ∃ j last,
        j < k + remaining
        ∧ LeadsTo p config watch j last k st
        ∧ last.FailsAt p j (st.passes p config watch remaining k gap seen).2.1 := by
  induction remaining generalizing k gap st seen with
  | zero => cases failed
  | succ remaining ih =>
      generalize passed : st.pass p config watch k = result at failed ⊢
      obtain ⟨outcome, next, events⟩ := result
      cases outcome with
      | ended how =>
          simp only [passes, passed] at failed ⊢
          subst failed
          exact ⟨k, st, by omega, .here, pass_failsAt passed⟩
      | stepped gap =>
          simp only [passes, passed] at failed ⊢
          obtain ⟨j, last, early, leads, fails⟩ := ih _ _ _ _ failed
          exact ⟨j, last, by omega, .onward passed leads, fails⟩

/-- What a solve leaves that fails in pass `k`: passes that go on lead there from the starting
point, and the iterate of that pass is the point of the solver, with the violations of the equations
there in the residual and its record as the last one.
-/
structure LeftAt [PivotSplit α] (p : LinearProgram α m n) (config : Config α)
    (watch : Watch α ε m n) (y : Blocks α m n) (k : Nat) (last st final : State engine m n)
    : Prop where
  start : p.startingPoint = .ok y
  early : k < config.iterationLimit
  leads : LeadsTo p config watch k last 0 (st.startedAt y)
  point_eq : final.point = last.point
  residual_x : final.residual.x = (p.residual final.point).x
  residual_lam : final.residual.lam = (p.residual final.point).lam
  history_eq : final.history = last.history.push (p.recordOf k final.point)
  size_eq : final.history.size = k + 1
  back_eq : final.history.back? = some (p.recordOf k final.point)

theorem solve_leftAt [PivotSplit α] {st : State engine m n} {fault : StepFault}
    (failed : (st.solve p config watch).1 = .failed (.step fault))
    : ∃ y k last, LeftAt p config watch y k last st (st.solve p config watch).2.1 := by
  cases start : p.startingPoint with
  | error fault =>
      rw [solve_unstarted start] at failed
      cases failed
  | ok y =>
      rw [solve_eq_conclude start] at failed ⊢
      have how := conclude_eq_failed_iff.mp failed
      obtain ⟨k, last, early, leads, fails⟩ := passes_failed _ _ _ _ _ how
      dsimp only
      rw [how]
      -- The release after the passes changes the backend alone.
      have size : last.history.size = k := by
        have all := leads.size_history
        simpa [startedAt] using all
      have history := fails.history_eq
      rw [← fails.point_eq] at history
      refine ⟨y, k, last, start, by omega, leads, fails.point_eq, ?_, ?_, history, ?_, ?_⟩
      · exact fails.residual_x.trans (by rw [← fails.point_eq]; rfl)
      · exact fails.residual_lam.trans (by rw [← fails.point_eq]; rfl)
      · refine (congrArg Array.size history).trans ?_
        rw [Array.size_push, size]
      · refine (congrArg Array.back? history).trans ?_
        rw [Array.back?_push]
        rfl

/-- A step that fails keeps the iterate, and before the end of its first solve the direction and the
whole residual as well. So a solve whose backend or step fails leaves the iterate of that pass,
which is what its last record is about.
-/
theorem failure_keepsIterate [PivotSplit α] (st : State engine m n)
    : (∀ mu fault next notices,
          st.step mu = (.error fault, next, notices)
          → st.KeepsIterate next
            ∧ ((∃ e, st.solveDirection.1 = .error e)
              → next.direction = st.direction ∧ next.residual = st.residual))
      ∧ ∀ {ε : Type} (p : LinearProgram α m n) (config : Config α) (watch : Watch α ε m n) fault,
          (st.solve p config watch).1 = .failed (.step fault)
          → ∃ y k last, LeftAt p config watch y k last st (st.solve p config watch).2.1 :=
  ⟨fun _ _ _ _ failed => (step_failedStep failed).keeps, fun _ _ _ _ failed =>
    solve_leftAt failed⟩

/-- A state of the sample program that is prepared for a step, with an engine that fails in some
solve from there.
-/
def sampleStopped (solve : Nat)
    : State (Engine.monitored (Direct.engine .dense : Engine ℚ Unit) ⟨none, some solve⟩) 1 2 :=
  let fresh := initial .sample (.fresh _ ((), ⟨0, 0, 0⟩))
  let placed := { fresh with point := samplePlaced.point }.updateResidual .sample
  (((placed.updateJacobian .sample).toOption.getD placed).prepare 0 false).2.1

/-- A computation that is found to fail has an error. -/
theorem exists_error {β : Type} {x : Except τ β} (h : x.isOk = false)
    : ∃ e, x = .error e := by
  cases x with
  | error e => exact ⟨e, rfl⟩
  | ok b => simp [Except.isOk, Except.toBool] at h

/-- A step that fails in its first solve, one that fails in its second after it has written
direction and products, and a solve that fails in the second solve of its second pass.
-/
theorem failure_keepsIterate_interrupted
    : (∃ fault next notices,
          (sampleStopped 1).step 1 = (.error fault, next, notices)
          ∧ (sampleStopped 1).KeepsIterate next
          ∧ next.direction = (sampleStopped 1).direction
          ∧ next.residual = (sampleStopped 1).residual)
      ∧ (∃ fault next notices,
          (sampleStopped 2).step 1 = (.error fault, next, notices)
          ∧ (sampleStopped 2).KeepsIterate next
          ∧ next.direction ≠ (sampleStopped 2).direction
          ∧ next.residual ≠ (sampleStopped 2).residual
          ∧ next.backend.isFactorized)
      ∧ (sampleInterrupted.solve .sample .sample (.silent : Watch ℚ Empty 1 2)).1
        = .failed (.step (.backend ⟨"dense", .solve .injected⟩))
      ∧ ∃ y last,
          LeftAt .sample .sample (.silent : Watch ℚ Empty 1 2) y 1 last sampleInterrupted
            (sampleInterrupted.solve .sample .sample .silent).2.1 := by
  obtain ⟨fault, predictor⟩ := exists_error (x := ((sampleStopped 1).step 1).1) (by decide +kernel)
  obtain ⟨e, refused⟩ := exists_error (x := (sampleStopped 1).solveDirection.1) (by decide +kernel)
  obtain ⟨fault', corrector⟩ :=
    exists_error (x := ((sampleStopped 2).step 1).1) (by decide +kernel)
  have factored : ((sampleStopped 2).step 1).2.1.backend.isFactorized := by decide +kernel
  have direction
      : ((sampleStopped 2).step 1).2.1.direction.x ≠ (sampleStopped 2).direction.x := by
    decide +kernel
  have products
      : ((sampleStopped 2).step 1).2.1.residual.s ≠ (sampleStopped 2).residual.s := by
    decide +kernel
  have failed
      : (sampleInterrupted.solve .sample .sample (.silent : Watch ℚ Empty 1 2)).1
        = .failed (.step (.backend ⟨"dense", .solve .injected⟩)) :=
    Ending.eq_failed_of_backendError? (by decide +kernel)
  have records
      : (sampleInterrupted.solve .sample .sample (.silent : Watch ℚ Empty 1 2)).2.1.history.size
        = 2 := by
    decide +kernel
  obtain ⟨first, written⟩ :=
    (failure_keepsIterate (sampleStopped 1)).1 1 fault _ _ (Prod.ext predictor rfl)
  have second :=
    ((failure_keepsIterate (sampleStopped 2)).1 1 fault' _ _ (Prod.ext corrector rfl)).1
  obtain ⟨y, k, last, left⟩ :=
    (failure_keepsIterate sampleInterrupted).2 .sample .sample .silent _ failed
  obtain rfl : k = 1 := by
    have size := left.size_eq
    omega
  refine ⟨⟨fault, _, _, Prod.ext predictor rfl, first, written ⟨e, refused⟩⟩,
    ⟨fault', _, _, Prod.ext corrector rfl, second, ?_, ?_, factored⟩, failed, y, last, left⟩
  · exact fun same => direction (congrArg Blocks.x same)
  · exact fun same => products (congrArg Blocks.s same)

end State

end InteriorPoint
