import InteriorPoint.Proofs.Restart

/-! When a solve overflows. Values that are not finite are carried along until a factorization or a
solve refuses them, with one exception: the power in the centering parameter of a step is refused
at once, and that is neither a failure of the backend nor one of the starting point.
-/

namespace InteriorPoint

variable {α σ ε : Type} [Zero α] [One α] [Add α] [Sub α] [Mul α] [Div α] [Neg α] [NatCast α]
  [LT α] [LE α] [DecidableLT α] [DecidableLE α] {engine : Engine α σ} {m n : Nat}

-----------------------------------------------------------------------------------------
-- One step
-----------------------------------------------------------------------------------------

/-- The measure that the affine step would leave is a finite multiple of the present one, but the
power of the quotient is not finite.
-/
structure CenteringOverflows (mu affine : α) : Prop where
  positive : 0 < mu
  quotient : isFinite (affine / mu)
  power : ¬isFinite (power (affine / mu) centeringExponent)

omit [Add α] [Neg α] [NatCast α] in
/-- That is what a centering parameter is refused for, and nothing else. -/
theorem centering_eq_error_iff {mu affine : α} {fault : StepFault}
    : centering mu affine = .error fault ↔ fault = .overflow ∧ CenteringOverflows mu affine := by
  constructor
  · intro refused
    refine ⟨centering_error refused, ?_⟩
    simp only [centering] at refused
    split at refused
    · next positive =>
        split at refused
        · next overflows =>
            rw [Bool.and_eq_true, Bool.not_eq_true'] at overflows
            exact ⟨positive, overflows.1, by simp [overflows.2]⟩
        · cases refused
    · cases refused
  · rintro ⟨rfl, positive, quotient, power⟩
    simp [centering, positive, quotient, power]

namespace State

omit [Neg α] in
/-- A step overflows after its first solve. -/
theorem step_overflows_iff (st : State engine m n) (mu : α)
    : (st.step mu).1 = .error .overflow
      ↔ ∃ predicted notices,
          st.solveDirection = (.ok (), predicted, notices)
          ∧ CenteringOverflows mu predicted.affineMeasure := by
  cases solved : st.solveDirection with
  | mk answer rest =>
      obtain ⟨predicted, notices⟩ := rest
      cases answer with
      | error e => simp [step, solved]
      | ok =>
          cases centered : centering mu predicted.affineMeasure with
          | error fault =>
              obtain ⟨rfl, overflows⟩ := centering_eq_error_iff.mp centered
              simp [step, solved, centered, overflows]
          | ok sigma =>
              have regular : ¬CenteringOverflows mu predicted.affineMeasure := by
                intro overflows
                have refused := centering_eq_error_iff.mpr ⟨rfl, overflows⟩
                rw [centered] at refused
                cases refused
              simp only [step, solved, centered]
              split <;> simp [regular]

-----------------------------------------------------------------------------------------
-- One pass
-----------------------------------------------------------------------------------------

variable {p : LinearProgram α m n} {config : Config α} {watch : Watch α ε m n}

omit [Neg α] in
/-- So does the part of a pass after its test, once the Jacobian is assembled and factored. -/
theorem advance_overflows_iff {record : Record α} {st : State engine m n}
    : (st.advance p watch record).1 = .ended (.failed (.step .overflow))
      ↔ ∃ jacobian ready predicted first second,
          p.assemble st.point st.jacobian = .ok jacobian
          ∧ { st with jacobian }.prepare record.iteration watch.timing = (.ok (), ready, first)
          ∧ ready.solveDirection = (.ok (), predicted, second)
          ∧ CenteringOverflows record.mu predicted.affineMeasure := by
  constructor
  · intro ended
    generalize advanced : st.advance p watch record = result at ended
    obtain ⟨outcome, next, events⟩ := result
    obtain rfl : outcome = .ended (.failed (.step .overflow)) := ended
    rcases advance_phases advanced with ⟨_, _, outcome, _⟩ | ⟨_, _, _, _, _, outcome, _⟩
      | ⟨jacobian, ready, fault, first, second, assembled, prepared, failed, outcome, _⟩
      | ⟨_, _, _, _, _, _, _, _, _, _, outcome, _⟩
    · cases outcome
    · cases outcome
    · cases outcome
      obtain ⟨predicted, notices, solved, overflows⟩ :=
        (ready.step_overflows_iff record.mu).mp (by rw [failed])
      exact ⟨jacobian, ready, predicted, first, notices, assembled, prepared, solved, overflows⟩
    · split at outcome <;> cases outcome
  · rintro ⟨jacobian, ready, predicted, first, second, assembled, prepared, solved, overflows⟩
    have failed := (ready.step_overflows_iff record.mu).mpr ⟨predicted, second, solved, overflows⟩
    generalize stepped : ready.step record.mu = result at failed
    obtain ⟨answer, next, notices⟩ := result
    obtain rfl : answer = .error .overflow := failed
    simp only [advance, updateJacobian, assembled, Except.map, prepared, stepped]

/-- A pass overflows: its point is not accepted, the backend factors the Jacobian there and solves
for the affine direction, and the centering parameter of that direction is refused.
-/
inductive PassOverflows (p : LinearProgram α m n) (config : Config α) (watch : Watch α ε m n)
    (k : Nat) (st : State engine m n)
    : Prop
  | intro (jacobian : Triplet α (n + m + n) (n + m + n)) (ready predicted : State engine m n)
    (first second : List Notice) (rejected : p.stopsAt config st.point = false)
    (assembled : p.assemble st.point st.jacobian = .ok jacobian)
    (prepared
      : State.prepare k watch.timing
          { st with
            residual := p.residual st.point
            history := st.history.push (p.recordOf k st.point)
            jacobian }
        = (.ok (), ready, first))
    (solved : ready.solveDirection = (.ok (), predicted, second))
    (overflows
      : CenteringOverflows (p.measures st.point (p.residual st.point)).mu predicted.affineMeasure)

theorem pass_overflows_iff (st : State engine m n) (k : Nat)
    : (st.pass p config watch k).1 = .ended (.failed (.step .overflow))
      ↔ st.PassOverflows p config watch k := by
  rw [pass_eq]
  cases stops : p.stopsAt config st.point with
  | true =>
      simp only [if_true]
      constructor
      · intro ended
        split at ended <;> cases ended
      · rintro ⟨_, _, _, _, _, rejected, _⟩
        rw [stops] at rejected
        cases rejected
  | false =>
      simp only [Bool.false_eq_true, if_false]
      refine advance_overflows_iff.trans ⟨?_, ?_⟩
      · rintro ⟨jacobian, ready, predicted, first, second, assembled, prepared, solved, overflows⟩
        exact ⟨jacobian, ready, predicted, first, second, stops, assembled, prepared, solved,
          overflows⟩
      · rintro ⟨jacobian, ready, predicted, first, second, _, assembled, prepared, solved,
          overflows⟩
        exact ⟨jacobian, ready, predicted, first, second, assembled, prepared, solved, overflows⟩

-----------------------------------------------------------------------------------------
-- A run and a solve
-----------------------------------------------------------------------------------------

/-- Passes from the one of number `k` on, each of which goes on, lead to the one of number `j`. -/
inductive LeadsTo (p : LinearProgram α m n) (config : Config α) (watch : Watch α ε m n) (j : Nat)
    (last : State engine m n)
    : Nat → State engine m n → Prop
  | here : LeadsTo p config watch j last j last
  | onward {k : Nat} {st next : State engine m n} {gap : α} {events : List (Event α m n)}
    (passed : st.pass p config watch k = (.stepped gap, next, events))
    (rest : LeadsTo p config watch j last (k + 1) next)
    : LeadsTo p config watch j last k st

theorem LeadsTo.le {j k : Nat} {last st : State engine m n}
    (h : LeadsTo p config watch j last k st)
    : k ≤ j := by
  induction h with
  | here => exact le_rfl
  | onward _ _ ih => omega

/-- A run overflows exactly if one of its passes does, by induction on the passes left. -/
theorem passes_overflows_iff (remaining k : Nat) (gap : Option α) (st : State engine m n)
    (seen : Array (Event α m n))
    : (st.passes p config watch remaining k gap seen).1 = .failed (.step .overflow)
      ↔ ∃ j last,
          j < k + remaining
          ∧ LeadsTo p config watch j last k st
          ∧ last.PassOverflows p config watch j := by
  induction remaining generalizing k gap st seen with
  | zero =>
      refine iff_of_false (by simp [passes]) ?_
      rintro ⟨j, last, early, leads, -⟩
      have le := leads.le
      omega
  | succ remaining ih =>
      generalize passed : st.pass p config watch k = result
      obtain ⟨outcome, next, events⟩ := result
      cases outcome with
      | ended how =>
          have here : how = .failed (.step .overflow) ↔ st.PassOverflows p config watch k := by
            rw [← pass_overflows_iff, passed, Pass.ended.injEq]
          simp only [passes, passed]
          refine here.trans ⟨fun overflows => ⟨k, st, by omega, .here, overflows⟩, ?_⟩
          rintro ⟨j, last, early, _ | ⟨onward, rest⟩, overflows⟩
          · exact overflows
          · rw [passed] at onward
            cases onward
      | stepped gap =>
          have regular : ¬st.PassOverflows p config watch k := by
            rw [← pass_overflows_iff, passed]
            simp
          simp only [passes, passed]
          refine (ih ..).trans ⟨?_, ?_⟩
          · rintro ⟨j, last, early, leads, overflows⟩
            exact ⟨j, last, by omega, .onward passed leads, overflows⟩
          · rintro ⟨j, last, early, _ | ⟨onward, rest⟩, overflows⟩
            · exact absurd overflows regular
            · rw [passed] at onward
              obtain ⟨-, rfl, -⟩ := onward
              exact ⟨j, last, by omega, rest, overflows⟩

/-- A solve overflows: it has a starting point, and one of the passes from there overflows. -/
def Overflows [PivotSplit α] (p : LinearProgram α m n) (config : Config α) (watch : Watch α ε m n)
    (st : State engine m n)
    : Prop :=
  ∃ y j last,
    p.startingPoint = .ok y
    ∧ j < config.iterationLimit
    ∧ LeadsTo p config watch j last 0 (st.startedAt y)
    ∧ last.PassOverflows p config watch j

theorem solve_overflows_iff [PivotSplit α] (st : State engine m n)
    : (st.solve p config watch).1 = .failed (.step .overflow) ↔ st.Overflows p config watch := by
  cases start : p.startingPoint with
  | error fault =>
      rw [solve_unstarted start]
      refine iff_of_false (by simp) ?_
      rintro ⟨y, _, _, started, -⟩
      rw [start] at started
      cases started
  | ok y =>
      rw [solve_eq_conclude start]
      refine conclude_eq_failed_iff.trans ((passes_overflows_iff ..).trans ⟨?_, ?_⟩)
      · rintro ⟨j, last, early, leads, overflows⟩
        exact ⟨y, j, last, start, by omega, leads, overflows⟩
      · rintro ⟨other, j, last, started, early, leads, overflows⟩
        obtain rfl : y = other := Except.ok.inj (start.symm.trans started)
        exact ⟨j, last, by omega, leads, overflows⟩

end State

end InteriorPoint
