import InteriorPoint.Proofs.Overflow
import InteriorPoint.Proofs.ReformulatedSteps

/-! Right side and cost in other units. The method has no units of its own: the starting point, the
residuals and the duality measure follow the units of the program, and the steps do not change. So
two solves in different units go through the same points, for as long as neither has stopped.
-/

namespace InteriorPoint

variable {α σ τ : Type} [Field α] [LinearOrder α] {m n : Nat}

-----------------------------------------------------------------------------------------
-- Programs and points in other units
-----------------------------------------------------------------------------------------

/-- The program with its right side and its cost in other units. -/
def LinearProgram.inUnits (p : LinearProgram α m n) (primal dual : α) : LinearProgram α m n where
  matrix := p.matrix
  rightSide := p.rightSide.map (primal * ·)
  cost := p.cost.map (dual * ·)

/-- A point, a direction or a residual, each part of it scaled by a number of its own. -/
def Blocks.scaled (y : Blocks α m n) (x lam s : α) : Blocks α m n where
  x := y.x.map (x * ·)
  lam := y.lam.map (lam * ·)
  s := y.s.map (s * ·)

namespace Reformulation

variable {primal dual : α} (hp : 0 < primal) (hd : 0 < dual)

omit [LinearOrder α] in
theorem get_map_mul {k : Nat} (unit : α) (v : Vector α k)
    : (v.map (unit * ·)).get = unit • v.get := by
  funext i
  simp

omit [LinearOrder α] in
theorem relabel_refl (unit : α) (v : Vector α n)
    : relabel (.refl _) unit v = v.map (unit * ·) :=
  vector_ext_get ((get_relabel ..).trans (get_map_mul ..).symm)

theorem combine_ofUnits (b : Vector α m)
    : (ofUnits hp hd : Reformulation α m n).combine b = b.map (primal * ·) := by
  refine vector_ext_get ?_
  rw [get_combine, get_map_mul]
  exact congrArg (primal • ·) (Matrix.one_mulVec _)

theorem point_ofUnits (y : Blocks α m n)
    : (ofUnits hp hd).point y = y.scaled primal dual dual := by
  refine (Blocks.mk.injEq ..).mpr ⟨relabel_refl .., vector_ext_get ?_, relabel_refl ..⟩
  rw [get_multipliers, get_map_mul, ofUnits, Units.inv_eq_val_inv, inv_one, Units.val_one,
    Matrix.transpose_one, Matrix.one_mulVec]

theorem residual_ofUnits (r : Blocks α m n)
    : (ofUnits hp hd).residual r = r.scaled dual primal (primal * dual) :=
  (Blocks.mk.injEq ..).mpr ⟨relabel_refl .., combine_ofUnits hp hd _, relabel_refl ..⟩

/-- A program in other units is one in other words. -/
theorem takes_inUnits (p : LinearProgram α m n)
    : (ofUnits hp hd).Takes p (p.inUnits primal dual) where
  matrix := by
    rw [ofUnits, Units.val_one, Matrix.one_mul]
    rfl
  rightSide := (combine_ofUnits hp hd p.rightSide).symm
  cost := (relabel_refl dual p.cost).symm

end Reformulation

-----------------------------------------------------------------------------------------
-- Two runs side by side
-----------------------------------------------------------------------------------------

variable [IsStrictOrderedRing α] {engine : Engine α σ} {twin : Engine α τ}

/-- Before pass `k` two runs are at counterparts, after the same steps, and ready for the pass. -/
structure Reformulation.Alongside (t : Reformulation α m n) (p q : LinearProgram α m n) (k : Nat)
    (st : State engine m n) (other : State twin m n)
    : Prop where
  point : other.point = t.point st.point
  steps : other.history.map Record.step = st.history.map Record.step
  ready : st.IsReady p k
  other_ready : other.IsReady q k

omit [Field α] [LinearOrder α] [IsStrictOrderedRing α] in
/-- No observer makes a run go on that has ended. -/
theorem Watch.onward_ended_ne_stepped {ε : Type} (watch : Watch α ε m n) (record : Record α)
    (y : Blocks α m n) (how : PassEnd α ε) (gap : α)
    : watch.onward record y (.ended how) ≠ .stepped gap := by
  rw [onward]
  cases (watch.observe record y).1 <;> simp

namespace Reformulation.Alongside

variable {t : Reformulation α m n} {p q : LinearProgram α m n} {ε δ : Type}
  {config other_config : Config α} {watch : Watch α ε m n} {other_watch : Watch α δ m n} {k : Nat}
  {st next : State engine m n} {other after : State twin m n}

/-- If both runs go on with pass `k`, they take the same step there. -/
theorem pass (takes : t.Takes p q) (hn : 0 < n) (ideal : engine.IsIdeal) (ideal' : twin.IsIdeal)
    (h : t.Alongside p q k st other) {gap gap' : α} {events : List (Event α m n)}
    {events' : List (Event α m n)}
    (first : st.pass p config watch k = (.stepped gap, next, events))
    (second : other.pass q other_config other_watch k = (.stepped gap', after, events'))
    : t.Alongside p q (k + 1) next after := by
  cases State.exactPass_of_pass ideal hn h.ready first with
  | stopped _ outcome => exact (watch.onward_ended_ne_stepped _ _ _ _ outcome.symm).elim
  | singular _ _ _ _ outcome => cases outcome
  | moved taken _ _ _ regular newton _ history _ ready =>
      cases State.exactPass_of_pass ideal' hn h.other_ready second with
      | stopped _ outcome => exact (other_watch.onward_ended_ne_stepped _ _ _ _ outcome.symm).elim
      | singular _ _ _ _ outcome => cases outcome
      | moved taken' _ _ _ _ newton' _ history' _ ready' =>
          obtain ⟨rfl, point⟩ := takes.sameStep h.point regular newton newton'
          exact {
            point
            steps := by rw [history, history', Array.map_push, Array.map_push, h.steps]
            ready
            other_ready := ready'
          }

/-- As long as both runs go on they stay at counterparts, by induction on the passes of the first
one.
-/
theorem leadsTo (takes : t.Takes p q) (hn : 0 < n) (ideal : engine.IsIdeal) (ideal' : twin.IsIdeal)
    {j : Nat} {last : State engine m n} {other_last : State twin m n}
    (h : t.Alongside p q k st other)
    (first : State.LeadsTo p config watch j last k st)
    (second : State.LeadsTo q other_config other_watch j other_last k other)
    : t.Alongside p q j last other_last := by
  induction first generalizing other with
  | here =>
      cases second with
      | here => exact h
      | onward _ rest =>
          have le := rest.le
          omega
  | onward passed rest ih =>
      cases second with
      | here =>
          have le := rest.le
          omega
      | onward passed' rest' =>
          exact ih (h.pass takes hn ideal ideal' passed passed') rest'

end Reformulation.Alongside

/-- Whether a run goes on after a pass. -/
def Pass.goesOn {ε : Type} : Pass α ε → Bool
  | .stepped _ => true
  | .ended _ => false

omit [IsStrictOrderedRing α] in
/-- A run that goes on after its first pass comes to the next one. -/
theorem State.exists_leadsTo_one {ε : Type} (p : LinearProgram α m n) (config : Config α)
    (watch : Watch α ε m n) (st : State engine m n)
    (onward : (st.pass p config watch 0).1.goesOn)
    : ∃ last, LeadsTo p config watch 1 last 0 st := by
  generalize passed : st.pass p config watch 0 = result at onward
  obtain ⟨gap | how, next, events⟩ := result
  · exact ⟨next, .onward passed .here⟩
  · cases onward

-----------------------------------------------------------------------------------------
-- The law
-----------------------------------------------------------------------------------------

namespace LinearProgram

/-- What does and what does not change with the units of right side and cost, in the numbers of a
point, in a single step and in a whole solve.
-/
structure FollowsUnits (engine : Engine α σ) (twin : Engine α τ) (p : LinearProgram α m n)
    (primal dual : α)
    : Prop where
  startingPoint
    : (p.inUnits primal dual).startingPoint
      = p.startingPoint.map (·.scaled primal dual dual)
  residual
    : ∀ y,
        (p.inUnits primal dual).residual (y.scaled primal dual dual)
        = (p.residual y).scaled dual primal (primal * dual)
  measure
    : ∀ y,
        (p.inUnits primal dual).measureAt (y.scaled primal dual dual)
        = primal * dual * p.measureAt y
  cycle
    : ∀ {k j : Nat} {st : State engine m n} {other : State twin m n} (timing timing' : Bool),
        st.IsSetFor p k
        → other.IsSetFor (p.inUnits primal dual) j
        → other.point = st.point.scaled primal dual dual
        → let first := st.cycle p k timing (p.measureAt st.point)
          let second := other.cycle (p.inUnits primal dual) j timing'
            ((p.inUnits primal dual).measureAt other.point)
          SameOrSingular first.1 second.1
          ∧ second.2.1.point = first.2.1.point.scaled primal dual dual
  iterates
    : ∀ {ε δ : Type} (config config' : Config α) (watch : Watch α ε m n)
        (watch' : Watch α δ m n) {st last : State engine m n} {other last' : State twin m n}
        {y : Blocks α m n} {k : Nat},
        p.HoldsJacobian st.jacobian
        → (p.inUnits primal dual).HoldsJacobian other.jacobian
        → p.startingPoint = .ok y
        → State.LeadsTo p config watch k last 0 (st.startedAt y)
        → State.LeadsTo (p.inUnits primal dual) config' watch' k last' 0
            (other.startedAt (y.scaled primal dual dual))
        → last'.point = last.point.scaled primal dual dual
          ∧ last'.history.map Record.step = last.history.map Record.step

/-- With direct engines every program follows its units. -/
theorem followsUnits (kind other : Direct) (p : LinearProgram α m n) (hn : 0 < n)
    {primal dual : α} (hp : 0 < primal) (hd : 0 < dual)
    : p.FollowsUnits (kind.engine : Engine α Unit) (other.engine : Engine α Unit) primal dual := by
  let t : Reformulation α m n := .ofUnits hp hd
  have takes : t.Takes p (p.inUnits primal dual) := Reformulation.takes_inUnits hp hd p
  have point (y : Blocks α m n) : t.point y = y.scaled primal dual dual :=
    Reformulation.point_ofUnits hp hd y
  have ideal : (kind.engine : Engine α Unit).IsIdeal := Direct.engine_isIdeal kind
  have ideal' : (other.engine : Engine α Unit).IsIdeal := Direct.engine_isIdeal other
  constructor
  · rcases takes.startingPoint_cases with ⟨y, start, start'⟩ | ⟨order, _, start, -⟩
    · rw [start, start', point]
      rfl
    · have refused : (p.inUnits primal dual).startingPoint = .error (.minorNotPositive m order) :=
        startingPoint_eq_error_iff_factor.mpr (p.startingPoint_eq_error_iff_factor.mp start)
      rw [start, refused]
      rfl
  · intro y
    rw [← point, takes.residual_point]
    exact Reformulation.residual_ofUnits hp hd _
  · intro y
    rw [← point]
    exact takes.measureAt_point y
  · intro k j st other timing timing' set set' scaled
    dsimp only
    rw [← point] at scaled ⊢
    rw [scaled, takes.measureAt_point]
    exact takes.cycle hn ideal ideal' set set' scaled timing timing' _
  · intro ε δ config config' watch watch' st last other last' y k held held' start first second
    have alongside : t.Alongside p (p.inUnits primal dual) 0 (st.startedAt y)
        (other.startedAt (y.scaled primal dual dual)) := {
      point := (point y).symm
      steps := rfl
      ready := State.isReady_startedAt held y
      other_ready := State.isReady_startedAt held' _
    }
    have reached := alongside.leadsTo takes hn ideal ideal' first second
    exact ⟨reached.point.trans (point _), reached.steps⟩

/-- The sample program with its right side doubled and its cost tripled, solved with the other
direct engine: both solves take a first step.
-/
theorem followsUnits_sample
    : sample.FollowsUnits (Direct.engine .dense : Engine ℚ Unit)
          (Direct.engine .sparse : Engine ℚ Unit) 2 3
        ∧ ∃ (y : Blocks ℚ 1 2) (last : State (Direct.engine .dense : Engine ℚ Unit) 1 2)
            (last' : State (Direct.engine .sparse : Engine ℚ Unit) 1 2),
          sample.startingPoint = .ok y
          ∧ State.LeadsTo sample .sample (.silent : Watch ℚ Empty 1 2) 1 last 0
              (State.sample.startedAt y)
          ∧ State.LeadsTo (sample.inUnits 2 3) .sample (.silent : Watch ℚ Empty 1 2) 1 last' 0
              ((State.initial (sample.inUnits 2 3) (.fresh _ ())).startedAt (y.scaled 2 3 3))
          ∧ last'.point = last.point.scaled 2 3 3 := by
  have follows := followsUnits .dense .sparse sample (by decide)
    (show (0 : ℚ) < 2 by norm_num) (show (0 : ℚ) < 3 by norm_num)
  let y := sample.startingPoint.toOption.getD (.filled 0)
  have start : sample.startingPoint = .ok y := by
    obtain ⟨z, found⟩ := exists_ok (x := sample.startingPoint) (by decide +kernel)
    simp only [y, found]
    rfl
  obtain ⟨last, first⟩ := State.exists_leadsTo_one sample .sample
    (.silent : Watch ℚ Empty 1 2) (State.sample.startedAt y) (by decide +kernel)
  let other : State (Direct.engine .sparse : Engine ℚ Unit) 1 2 :=
    .initial (sample.inUnits 2 3) (.fresh _ ())
  obtain ⟨last', second⟩ := State.exists_leadsTo_one (sample.inUnits 2 3) .sample
    (.silent : Watch ℚ Empty 1 2) (other.startedAt (y.scaled 2 3 3)) (by decide +kernel)
  exact ⟨follows, y, last, last', start, first, second,
    (follows.iterates _ _ _ _ .empty .empty start first second).1⟩

end LinearProgram

end InteriorPoint
