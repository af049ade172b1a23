import InteriorPoint.Proofs.Assembly
import InteriorPoint.Proofs.Comparison
import InteriorPoint.Proofs.Passes

/-! What a result is worth that a solve returns in an arithmetic with undefined values. The test
refuses a gap that compares as too great and takes the greater residual norm by one comparison, so
an undefined gap and an undefined dual residual pass it.
-/

namespace InteriorPoint

open DefinedOrder

-----------------------------------------------------------------------------------------
-- What the test lets pass
-----------------------------------------------------------------------------------------

section Test

variable {α : Type} [Zero α] [Neg α] [LT α] [LE α] [DecidableLT α] [DecidableLE α]
  [DefinedOrder α] {m n : Nat}

/-- The test asks of the gap that it is below its tolerance or undefined, and with a feasibility
tolerance the same of the dual residual; the primal residual has to be below.
-/
theorem Config.accepts_iff_of_defined {config : Config α}
    (defined : config.gapTolerance ≤ config.gapTolerance) (r : Blocks α m n) (gap : α)
    : config.accepts r gap
      ↔ (gap < config.gapTolerance ∨ isUndefined gap)
        ∧ ∀ tolerance ∈ config.feasibilityTolerance,
            r.primalNorm < tolerance ∧ (r.dualNorm < tolerance ∨ isUndefined r.dualNorm) := by
  rw [← not_le_iff_lt_or_isUndefined defined, accepts]
  split
  · next above => simp [above]
  · next below =>
      cases asked : config.feasibilityTolerance with
      | none => simp [below]
      | some tolerance => simp [below, (isCut_lt tolerance).firstMax_iff]

end Test

-----------------------------------------------------------------------------------------
-- What a converged solve promises
-----------------------------------------------------------------------------------------

section Runs

variable {α σ ε : Type} [Zero α] [One α] [Add α] [Sub α] [Mul α] [Div α] [Neg α] [NatCast α]
  [LT α] [LE α] [DecidableLT α] [DecidableLE α] {engine : Engine α σ} {m n : Nat}

namespace State

/-- The residual at hand is the one of the point, and the test is passed there. -/
structure PassesTest (p : LinearProgram α m n) (config : Config α) (st : State engine m n)
    : Prop where
  residual_eq : st.residual = p.residual st.point
  accepts
    : config.accepts (p.residual st.point)
        (relativeGap (p.objective st.point) (p.dualObjective st.point))

omit [Neg α] in
/-- What follows its test never ends a pass as accepted. -/
theorem advance_ne_accepted (p : LinearProgram α m n) (watch : Watch α ε m n)
    (record : Record α) (st : State engine m n)
    : (st.advance p watch record).1 ≠ .ended .accepted := by
  simp only [advance]
  repeat' split
  all_goals simp

/-- A pass ends as accepted only where the test is passed. -/
theorem passesTest_of_pass {p : LinearProgram α m n} {config : Config α}
    {watch : Watch α ε m n} {iteration : Nat} {st next : State engine m n}
    {events : List (Event α m n)}
    (h : st.pass p config watch iteration = (.ended .accepted, next, events))
    : next.PassesTest p config := by
  simp only [pass] at h
  split at h
  · next accepted =>
      obtain ⟨-, rest⟩ := Prod.mk.inj h
      obtain ⟨rfl, -⟩ := Prod.mk.inj rest
      exact ⟨rfl, accepted⟩
  · obtain ⟨reached, -⟩ := Prod.mk.inj h
    exact (advance_ne_accepted p watch _ _ reached).elim

/-- So does a whole run. -/
theorem passesTest_of_passes {p : LinearProgram α m n} {config : Config α}
    {watch : Watch α ε m n} {remaining : Nat} {st : State engine m n}
    {seen : Array (Event α m n)}
    (accepted : (st.passes p config watch remaining 0 none seen).1 = .accepted)
    : (st.passes p config watch remaining 0 none seen).2.1.PassesTest p config := by
  refine passes_induction (fun _ _ => True)
    (fun how st => how = .accepted → st.PassesTest p config) ?_ ?_ remaining trivial ?_ accepted
  · intros
    trivial
  · rintro _ _ _ _ _ - passed rfl
    exact passesTest_of_pass passed
  · intro _ _ _ impossible
    simp at impossible

end State

/-- What a configuration asks of a result: a gap and, with a feasibility tolerance, two residual
norms below their tolerances.
-/
structure Result.MeetsTolerances (config : Config α) (r : Result α m n) : Prop where
  gap_lt : r.gap < config.gapTolerance
  residual_lt
    : ∀ tolerance ∈ config.feasibilityTolerance,
        r.primalResidual < tolerance ∧ r.dualResidual < tolerance

/-- The values whose comparisons the test does not look at closely enough are defined. -/
structure Result.IsDefined (config : Config α) (r : Result α m n) : Prop where
  gap : r.gap ≤ r.gap
  dualResidual
    : config.feasibilityTolerance.isSome → r.dualResidual ≤ r.dualResidual

/-- A result of a solve has passed the test, so it meets its tolerances as far as it is defined. -/
theorem Result.meetsTolerances_iff [DefinedOrder α] [PivotSplit α] {config : Config α}
    (defined : config.gapTolerance ≤ config.gapTolerance) {p : LinearProgram α m n}
    {watch : Watch α ε m n} {st : State engine m n} {r : Result α m n}
    (converged : (st.solve p config watch).1 = .converged r)
    : r.MeetsTolerances config ↔ r.IsDefined config := by
  obtain ⟨y, seen, -, accepted, rfl⟩ := State.solve_converged converged
  obtain ⟨residual_eq, accepts⟩ := State.passesTest_of_passes accepted
  rw [← residual_eq, Config.accepts_iff_of_defined defined] at accepts
  obtain ⟨gap, residual⟩ := accepts
  constructor
  · rintro ⟨gap_lt, residual_lt⟩
    refine ⟨(lt_iff.mp gap_lt).1, fun asked => ?_⟩
    obtain ⟨tolerance, some_eq⟩ := Option.isSome_iff_exists.mp asked
    exact (lt_iff.mp (residual_lt tolerance some_eq).2).1
  · rintro ⟨gap_defined, dual_defined⟩
    refine ⟨gap.resolve_right fun undefined => isUndefined_iff.mp undefined gap_defined, ?_⟩
    intro tolerance asked
    obtain ⟨primal, dual⟩ := residual tolerance asked
    have known := dual_defined (Option.isSome_of_mem asked)
    exact ⟨primal, dual.resolve_right fun undefined => isUndefined_iff.mp undefined known⟩

end Runs

-----------------------------------------------------------------------------------------
-- Settings that are read give a tolerance that is defined
-----------------------------------------------------------------------------------------

section Settings

open Setting

namespace Config

theorem readTolerance_pos {which : Tolerance} {value : Value} {x : Float}
    (read : readTolerance which value = .ok x)
    : 0 < x := by
  simp only [readTolerance] at read
  split at read
  · simp at read
  · split at read
    · next kept =>
        obtain rfl := Except.ok.inj read
        simp at kept
        exact kept.2
    · simp at read

/-- The settings are read one after another, each with its standard value where it is absent. -/
theorem ofSettings_eq (settings : List (String × Value))
    : ofSettings settings
      = (lookup? "nmaxit" settings).elim (pure standard.iterationLimit) readLimit
          >>= fun iterationLimit =>
        (lookup? Tolerance.gap.key settings).elim (pure standard.gapTolerance)
            (readTolerance .gap)
          >>= fun gapTolerance =>
        (lookup? Tolerance.feasibility.key settings).elim (pure standard.feasibilityTolerance)
            readFeasibility
          >>= fun feasibilityTolerance =>
        pure { iterationLimit, gapTolerance, feasibilityTolerance } := by
  rw [ofSettings]
  cases lookup? "nmaxit" settings <;> cases lookup? Tolerance.gap.key settings <;>
    cases lookup? Tolerance.feasibility.key settings <;> rfl

/-- A configuration that is read has a positive tolerance for the gap. -/
theorem gapTolerance_pos {settings : Value} {config : Config Float}
    (read : ofValue settings = .ok config)
    : 0 < config.gapTolerance := by
  have standard_pos : 0 < standard.gapTolerance := by decide +kernel
  cases settings with
  | absent =>
      obtain rfl := Except.ok.inj read
      exact standard_pos
  | map settings =>
      rw [ofValue, ofSettings_eq] at read
      obtain ⟨limit, -, rest⟩ := bind_ok read
      obtain ⟨gap, found, rest⟩ := bind_ok rest
      obtain ⟨feasibility, -, made⟩ := bind_ok rest
      obtain rfl := Except.ok.inj made
      change 0 < gap
      cases asked : lookup? Tolerance.gap.key settings with
      | none =>
          rw [asked] at found
          exact Except.ok.inj found ▸ standard_pos
      | some value =>
          rw [asked] at found
          exact readTolerance_pos found
  | bool _ | int _ | float _ | text _ | list _ => simp [ofValue] at read

end Config

/-- With tolerances that are read from settings, the test lets a gap pass that is undefined, and
with a feasibility tolerance a dual residual; so a result meets its tolerances if and only if
these values are defined.
-/
theorem Result.meetsTolerances_iff_isDefined {settings : Value} {config : Config Float}
    (read : Config.ofValue settings = .ok config)
    : (∀ {m n : Nat} (r : Blocks Float m n) (gap : Float),
          config.accepts r gap
          ↔ (gap < config.gapTolerance ∨ isUndefined gap)
            ∧ ∀ tolerance ∈ config.feasibilityTolerance,
                r.primalNorm < tolerance ∧ (r.dualNorm < tolerance ∨ isUndefined r.dualNorm))
      ∧ ∀ {σ ε : Type} {engine : Engine Float σ} {m n : Nat} (p : LinearProgram Float m n)
          (watch : Watch Float ε m n) (st : State engine m n) (r : Result Float m n),
          (st.solve p config watch).1 = .converged r
          → (r.MeetsTolerances config ↔ r.IsDefined config) := by
  have defined : config.gapTolerance ≤ config.gapTolerance :=
    (lt_iff.mp (Config.gapTolerance_pos read)).2.1
  constructor
  · intro m n r gap
    exact Config.accepts_iff_of_defined defined r gap
  · intro σ ε engine m n p watch st r converged
    exact meetsTolerances_iff defined converged

/-- Whether a solve converged to a result with some property. -/
def Ending.convergesTo {α ε : Type} {m n : Nat} (holds : Result α m n → Bool)
    : Ending α ε m n → Bool
  | .converged r => holds r
  | _ => false

theorem Ending.exists_of_convergesTo {α ε : Type} {m n : Nat} {x : Ending α ε m n}
    (holds : Result α m n → Bool) (h : x.convergesTo holds)
    : ∃ r, x = .converged r ∧ holds r := by
  cases x with
  | converged r => exact ⟨r, rfl, h⟩
  | unconverged _ _ | failed _ | interrupted _ => simp [convergesTo] at h

/-- One variable, which has to have some value. -/
def LinearProgram.single (value cost : Float) : LinearProgram Float 1 1 where
  matrix := ⟨#v[[(.last 0, 1)]]⟩
  rightSide := #v[value]
  cost := #v[cost]

/-- A solve of such a program with the sparse engine. -/
def solveSingle (value cost : Float) (config : Config Float) : Ending Float Empty 1 1 :=
  ((State.initial (.single value cost) (.fresh (Direct.engine .sparse) ())).solve
    (.single value cost) config .silent).1

/-- The standard configuration with a tolerance for feasibility. -/
def Config.feasible : Config Float :=
  { standard with feasibilityTolerance := some 0.5 }

theorem Config.ofValue_feasible
    : Config.ofValue (.map [("feastol", .float 0.5)]) = .ok feasible := by
  have kept : (isFinite (0.5 : Float) && decide ((0 : Float) < 0.5)) = true := by decide +kernel
  have read : readTolerance .feasibility (.float 0.5) = .ok 0.5 := by
    simp only [readTolerance, Value.toDouble, kept, if_true]
  rw [ofValue, ofSettings_eq]
  refine bind_eq_of_ok rfl (bind_eq_of_ok rfl (bind_eq_of_ok ?_ rfl))
  exact congrArg (Except.map some) read

/-- For a moderate value and cost all of the result is defined. -/
theorem Result.meetsTolerances_iff_isDefined_single
    : Config.ofValue (.map [("feastol", .float 0.5)]) = .ok .feasible
      ∧ ∃ r,
          solveSingle 2 3 .feasible = .converged r
          ∧ r.IsDefined .feasible
          ∧ r.MeetsTolerances .feasible := by
  obtain ⟨r, converged, defined⟩ := Ending.exists_of_convergesTo
    (x := solveSingle 2 3 .feasible)
    (fun r => decide (r.gap ≤ r.gap) && decide (r.dualResidual ≤ r.dualResidual))
    (by decide +kernel)
  rw [Bool.and_eq_true, decide_eq_true_iff, decide_eq_true_iff] at defined
  have isDefined : r.IsDefined .feasible := ⟨defined.1, fun _ => defined.2⟩
  have meets := (meetsTolerances_iff_isDefined Config.ofValue_feasible).2 (.single 2 3) .silent
    (State.initial (.single 2 3) (.fresh (Direct.engine .sparse) ())) r converged
  exact ⟨Config.ofValue_feasible, r, converged, isDefined, meets.mpr isDefined⟩

/-- Value and cost whose product is infinite give a result with an undefined gap. With a tolerance
for feasibility, an undefined dual residual is accepted as well.
-/
theorem Result.not_meetsTolerances_of_overflow
    : (∃ r,
          solveSingle 1e200 1e200 .standard = .converged r
          ∧ ¬r.gap < Config.standard.gapTolerance)
      ∧ Config.feasible.accepts (⟨#v[0 / 0], #v[0], #v[0]⟩ : Blocks Float 1 1) 0
      ∧ ¬(⟨#v[0 / 0], #v[0], #v[0]⟩ : Blocks Float 1 1).dualNorm < 0.5 := by
  refine ⟨?_, by decide +kernel, by decide +kernel⟩
  obtain ⟨r, converged, undefined⟩ := Ending.exists_of_convergesTo
    (x := solveSingle 1e200 1e200 .standard)
    (fun r => !decide (r.gap < Config.standard.gapTolerance)) (by decide +kernel)
  exact ⟨r, converged, by simpa using undefined⟩

end Settings

end InteriorPoint
