import InteriorPoint.Method.Construction
import InteriorPoint.Proofs.Denotation
import InteriorPoint.Proofs.Jacobian
import InteriorPoint.Proofs.LeastNorm
import InteriorPoint.Proofs.Restart

/-! A solve depends on the matrix of its program, and not on how that is stored. Two programs with
one matrix have the same starting point and the same residuals, and their Jacobians, though they
hold other entries and have other room, are the same matrix to an engine that factors it.
-/

namespace InteriorPoint

open scoped Matrix

variable {α σ ε : Type} {m n : Nat}

/-- Two programs that ask for the same, whatever their matrices store. -/
structure LinearProgram.SameProblem [Field α] (p q : LinearProgram α m n) : Prop where
  matrix : p.toMatrix = q.toMatrix
  rightSide : p.rightSide = q.rightSide
  cost : p.cost = q.cost

/-- An engine that factors what an assembly adds up to, and does not look at its entries. -/
def Engine.ReadsGrid [Zero α] [Add α] (engine : Engine α σ) : Prop :=
  ∀ {size : Nat} (t other : Triplet α size size) (state : σ),
    t.toGrid = other.toGrid → engine.factorize t state = engine.factorize other state

/-- The two direct engines are of that kind. -/
theorem Direct.readsGrid [Zero α] [Add α] [Sub α] [Mul α] [Div α] [Neg α] [LT α] [LE α]
    [DecidableLT α] [DecidableLE α] (kind : Direct)
    : (kind.engine (α := α)).ReadsGrid := by
  intro size t other state same
  cases kind with
  | sparse => simp only [engine, factorSparse, same]
  | dense => simp only [engine, factorDense, same]

-----------------------------------------------------------------------------------------
-- What a solve computes from the matrix
-----------------------------------------------------------------------------------------

section Field

variable [Field α]

omit [Field α] in
/-- A grid is known from its matrix. -/
theorem Grid.eq_of_toMatrix_eq {a b : Grid α m n} (same : a.toMatrix = b.toMatrix)
    : a = b :=
  Grid.ext_entry fun i j => congrFun (congrFun same i) j

namespace LinearProgram.SameProblem

variable {p q : LinearProgram α m n}

theorem mulVec_eq (same : p.SameProblem q) (x : Vector α n)
    : Entries.mulVec p.matrix.entries x = Entries.mulVec q.matrix.entries x := by
  refine vector_ext_get ?_
  rw [Entries.get_mulVec, Entries.get_mulVec]
  exact congrArg (· *ᵥ x.get) same.matrix

theorem trMulVec_eq (same : p.SameProblem q) (y : Vector α m)
    : Entries.trMulVec p.matrix.entries y = Entries.trMulVec q.matrix.entries y := by
  refine vector_ext_get ?_
  rw [Entries.get_trMulVec, Entries.get_trMulVec]
  exact congrArg (·ᵀ *ᵥ y.get) same.matrix

theorem gram_eq (same : p.SameProblem q)
    : p.matrix.gram = q.matrix.gram := by
  refine Grid.eq_of_toMatrix_eq ?_
  rw [Columns.toMatrix_gram, Columns.toMatrix_gram]
  exact congrArg (fun a => a * aᵀ) same.matrix

/-- The Jacobians of two such programs at one point are one matrix, since they take every direction
to the same.
-/
theorem jacobian_eq (same : p.SameProblem q) (x s : Vector α n)
    : Entries.toMatrix (p.matrix.jacobianEntries x s)
      = Entries.toMatrix (q.matrix.jacobianEntries x s) := by
  refine Matrix.ext_of_mulVec_single fun k => ?_
  let d : Blocks α m n := .ofFlat (Vector.ofFn (Pi.single k 1))
  have direction : d.flatten.get = Pi.single k 1 := by
    rw [Blocks.flatten_ofFlat, get_ofFn]
  rw [← direction]
  funext place
  cases place using Blocks.placeCases with
  | x i => rw [jacobian_mulVec_xPlace, jacobian_mulVec_xPlace, same.matrix]
  | lam i => rw [jacobian_mulVec_lamPlace, jacobian_mulVec_lamPlace, same.matrix]
  | s i => rw [jacobian_mulVec_sPlace, jacobian_mulVec_sPlace]

/-- So they fill in the same grid, whatever room there is. -/
theorem toGrid_eq (same : p.SameProblem q) (x s : Vector α n) (capacity other : Nat)
    : (⟨capacity, p.matrix.jacobianEntries x s⟩ : Triplet α _ _).toGrid
      = (⟨other, q.matrix.jacobianEntries x s⟩ : Triplet α _ _).toGrid := by
  refine Grid.eq_of_toMatrix_eq ?_
  rw [Triplet.toMatrix_toGrid, Triplet.toMatrix_toGrid, same.jacobian_eq]

theorem residual_eq (same : p.SameProblem q) (y : Blocks α m n)
    : p.residual y = q.residual y := by
  simp only [residual, same.trMulVec_eq, same.mulVec_eq, same.rightSide, same.cost]

variable [LinearOrder α]

theorem recordOf_eq (same : p.SameProblem q) (iteration : Nat) (y : Blocks α m n)
    : p.recordOf iteration y = q.recordOf iteration y := by
  simp only [recordOf, objective, dualObjective, measures, same.residual_eq, same.rightSide,
    same.cost]

theorem stopsAt_eq (same : p.SameProblem q) (config : Config α) (y : Blocks α m n)
    : p.stopsAt config y = q.stopsAt config y := by
  simp only [stopsAt, objective, dualObjective, same.residual_eq, same.rightSide, same.cost]

theorem startingPoint_eq (same : p.SameProblem q)
    : p.startingPoint = q.startingPoint := by
  simp only [startingPoint, leastNorm, Kernel.addTrMulVec, same.gram_eq, same.mulVec_eq,
    same.trMulVec_eq, same.rightSide, same.cost]

end LinearProgram.SameProblem

-----------------------------------------------------------------------------------------
-- Two solvers whose Jacobians differ in what they store
-----------------------------------------------------------------------------------------

/-- Factoring makes the same of two targets that fill in the same grid. -/
theorem Backend.factorize_congr {τ : Type} {engine : Engine α σ} (reads : engine.ReadsGrid)
    (b : Backend engine τ) {read other : τ → SquareTriplet α}
    (grids
      : ∀ target, ∃ (size : Nat) (t u : Triplet α size size),
          read target = ⟨size, t⟩ ∧ other target = ⟨size, u⟩ ∧ t.toGrid = u.toGrid)
    : b.factorize read = b.factorize other := by
  simp only [factorize]
  split
  · rfl
  · next target _ =>
      obtain ⟨size, t, u, here, there, same⟩ := grids target
      rw [here, there]
      dsimp only
      rw [reads t u b.state same]
      obtain ⟨result, after⟩ := engine.factorize u b.state
      cases result <;> rfl

namespace State

variable {engine : Engine α σ} {p q : LinearProgram α m n}

/-- The solver with another Jacobian. -/
def withJacobian (st : State engine m n) (jacobian : Triplet α (n + m + n) (n + m + n))
    : State engine m n :=
  { st with jacobian }

/-- Factoring ignores what a Jacobian is made of. -/
theorem factorize_withJacobian (reads : engine.ReadsGrid) (st : State engine m n)
    {jacobian other : Triplet α (n + m + n) (n + m + n)} (grid : jacobian.toGrid = other.toGrid)
    : (st.withJacobian other).factorize
      = ((st.withJacobian jacobian).factorize.1,
          (st.withJacobian jacobian).factorize.2.1.withJacobian other,
          (st.withJacobian jacobian).factorize.2.2) := by
  have same
      : st.backend.factorize (st.withJacobian other).read
        = st.backend.factorize (st.withJacobian jacobian).read := by
    refine Backend.factorize_congr reads _ fun target => ?_
    cases target with
    | jacobian => exact ⟨n + m + n, other, jacobian, rfl, rfl, grid.symm⟩
    | other matrix => exact ⟨matrix.size, matrix.content, matrix.content, rfl, rfl, rfl⟩
  have outcome := congrArg
    (fun o => (o.result, { st.withJacobian other with backend := o.backend }, o.notices)) same
  exact outcome

/-- So does what makes a backend ready for a pass. -/
theorem prepare_withJacobian (reads : engine.ReadsGrid) (st : State engine m n)
    {jacobian other : Triplet α (n + m + n) (n + m + n)} (grid : jacobian.toGrid = other.toGrid)
    {k : Nat} {timing : Bool} {result : Except BackendError Unit} {next : State engine m n}
    {notices : List Notice}
    (h : (st.withJacobian jacobian).prepare k timing = (result, next, notices))
    : (st.withJacobian other).prepare k timing = (result, next.withJacobian other, notices) := by
  have bound (held : Triplet α (n + m + n) (n + m + n))
      : (if k = 0 then (st.withJacobian held).attach false timing
          else (.ok (), st.withJacobian held, []))
        = ((if k = 0 then st.attach false timing else (.ok (), st, [])).1,
            (if k = 0 then st.attach false timing else (.ok (), st, [])).2.1.withJacobian held,
            (if k = 0 then st.attach false timing else (.ok (), st, [])).2.2) := by
    split <;> rfl
  rw [prepare, bound] at h ⊢
  generalize (if k = 0 then st.attach false timing else (.ok (), st, [])) = attached at h ⊢
  obtain ⟨accepted, ready, told⟩ := attached
  cases accepted with
  | error e =>
      obtain ⟨rfl, rest⟩ := Prod.mk.inj h
      obtain ⟨rfl, rfl⟩ := Prod.mk.inj rest
      rfl
  | ok =>
      dsimp only at h ⊢
      obtain ⟨rfl, rest⟩ := Prod.mk.inj h
      obtain ⟨rfl, rfl⟩ := Prod.mk.inj rest
      rw [factorize_withJacobian reads ready grid]

section Step

variable [LinearOrder α]

theorem solveDirection_withJacobian (st : State engine m n)
    (jacobian : Triplet α (n + m + n) (n + m + n))
    : (st.withJacobian jacobian).solveDirection
      = (st.solveDirection.1, st.solveDirection.2.1.withJacobian jacobian,
          st.solveDirection.2.2) := by
  simp only [solveDirection, withJacobian]
  split <;> rfl

/-- A step does not look at the Jacobian, but at its factors. -/
theorem step_withJacobian {st next : State engine m n} {mu : α}
    {result : Except StepFault (Step α)} {notices : List Notice}
    (jacobian : Triplet α (n + m + n) (n + m + n)) (h : st.step mu = (result, next, notices))
    : (st.withJacobian jacobian).step mu = (result, next.withJacobian jacobian, notices) := by
  have whole
      : (st.withJacobian jacobian).step mu
        = ((st.step mu).1, (st.step mu).2.1.withJacobian jacobian, (st.step mu).2.2) := by
    rw [step, step, solveDirection_withJacobian]
    generalize st.solveDirection = predicted
    obtain ⟨first, after, told⟩ := predicted
    cases first with
    | error e => rfl
    | ok =>
        have affine : (after.withJacobian jacobian).affineMeasure = after.affineMeasure := rfl
        dsimp only
        rw [affine]
        cases centering mu after.affineMeasure with
        | error fault => rfl
        | ok sigma =>
            have corrected
                : (after.withJacobian jacobian).correct sigma mu
                  = (after.correct sigma mu).withJacobian jacobian := rfl
            dsimp only
            rw [corrected, solveDirection_withJacobian]
            generalize (after.correct sigma mu).solveDirection = second
            obtain ⟨second, last, more⟩ := second
            cases second <;> rfl
  rw [whole, h]

end Step

-----------------------------------------------------------------------------------------
-- Side by side
-----------------------------------------------------------------------------------------

/-- Two solvers, of two programs, that differ in their Jacobians alone. Both have room for a full
one.
-/
structure Twin (p q : LinearProgram α m n) (st other : State engine m n) : Prop where
  rest : other = st.withJacobian other.jacobian
  room : p.jacobianCapacity ≤ st.jacobian.capacity
  other_room : q.jacobianCapacity ≤ other.jacobian.capacity

/-- Assembly makes Jacobians of them that are one matrix. -/
theorem Twin.assemble {st other : State engine m n} (same : p.SameProblem q)
    (twin : Twin p q st other) {jacobian : Triplet α (n + m + n) (n + m + n)}
    (assembled : p.assemble st.point st.jacobian = .ok jacobian)
    : ∃ held,
        other.updateJacobian q = .ok (st.withJacobian held)
        ∧ jacobian.toGrid = held.toGrid
        ∧ p.jacobianCapacity ≤ jacobian.capacity
        ∧ q.jacobianCapacity ≤ held.capacity := by
  obtain ⟨t, rfl⟩ : ∃ t, other = st.withJacobian t := ⟨_, twin.rest⟩
  have assembles : q.assemble st.point t = _ := q.assemble_eq st.point twin.other_room
  rw [p.assemble_eq _ twin.room] at assembled
  obtain rfl := Except.ok.inj assembled
  refine ⟨_, ?_, same.toGrid_eq .., twin.room, twin.other_room⟩
  exact congrArg (Except.map st.withJacobian) assembles

variable [LinearOrder α] {config : Config α} {watch : Watch α ε m n}
  {st other next : State engine m n} {outcome : Pass α ε} {events : List (Event α m n)}

/-- Twins do the same after the test of a pass, and remain twins. -/
theorem Twin.advance (same : p.SameProblem q) (reads : engine.ReadsGrid)
    (twin : Twin p q st other) {record : Record α}
    (h : st.advance p watch record = (outcome, next, events))
    : ∃ after, other.advance q watch record = (outcome, after, events) ∧ Twin p q next after := by
  rcases advance_phases h with ⟨fault, refused, _⟩
    | ⟨jacobian, e, notices, assembled, prepared, rfl, rfl⟩
    | ⟨jacobian, ready, fault, one, two, assembled, prepared, failed, rfl, rfl⟩
    | ⟨jacobian, ready, moved, taken, one, two, assembled, prepared, stepped, rfl, told, rfl⟩
  · rw [p.assemble_eq _ twin.room] at refused
    cases refused
  · obtain ⟨held, assembles, grid, room, other_room⟩ := twin.assemble same assembled
    have prepares := st.prepare_withJacobian reads grid prepared
    refine ⟨next.withJacobian held, ?_, rfl, ?_, other_room⟩
    · simp only [State.advance, assembles, prepares]
    · rwa [prepare_leaves prepared]
  · obtain ⟨held, assembles, grid, room, other_room⟩ := twin.assemble same assembled
    have prepares := st.prepare_withJacobian reads grid prepared
    have fails := step_withJacobian held failed
    refine ⟨next.withJacobian held, ?_, rfl, ?_, other_room⟩
    · simp only [State.advance, assembles, prepares, fails]
    · rwa [step_leaves failed, prepare_leaves prepared]
  · obtain ⟨held, assembles, grid, room, other_room⟩ := twin.assemble same assembled
    have prepares := st.prepare_withJacobian reads grid prepared
    have steps := step_withJacobian held stepped
    let record : Record α := { record with step := some taken }
    let noted : State engine m n := { moved with history := moved.history.pop.push record }
    refine ⟨noted.withJacobian held, ?_, rfl, ?_, other_room⟩
    · simp only [State.advance, assembles, prepares, steps, told]
      rfl
    · show p.jacobianCapacity ≤ moved.jacobian.capacity
      rwa [step_leaves stepped, prepare_leaves prepared]

/-- They go through the same passes. -/
theorem Twin.pass (same : p.SameProblem q) (reads : engine.ReadsGrid)
    (twin : Twin p q st other) {k : Nat}
    (h : st.pass p config watch k = (outcome, next, events))
    : ∃ after, other.pass q config watch k = (outcome, after, events) ∧ Twin p q next after := by
  obtain ⟨jacobian, rfl⟩ : ∃ jacobian, other = st.withJacobian jacobian := ⟨_, twin.rest⟩
  obtain ⟨_, room, other_room⟩ := twin
  rw [pass_eq] at h ⊢
  have point : (st.withJacobian jacobian).point = st.point := rfl
  rw [point, ← same.recordOf_eq, ← same.stopsAt_eq, ← same.residual_eq]
  cases stops : p.stopsAt config st.point with
  | true =>
      simp only [stops, if_true] at h ⊢
      obtain ⟨rfl, rest⟩ := Prod.mk.inj h
      obtain ⟨rfl, rfl⟩ := Prod.mk.inj rest
      exact ⟨_, rfl, rfl, room, other_room⟩
  | false =>
      simp only [stops, Bool.false_eq_true, if_false] at h ⊢
      let noted (now : State engine m n) : State engine m n := { now with
        residual := p.residual st.point
        history := st.history.push (p.recordOf k st.point) }
      have twin : Twin p q (noted st) (noted (st.withJacobian jacobian)) :=
        ⟨rfl, room, other_room⟩
      obtain ⟨rfl, rest⟩ := Prod.mk.inj h
      obtain ⟨rfl, rfl⟩ := Prod.mk.inj rest
      have advanced : (noted st).advance p watch (p.recordOf k st.point) = (_, _, _) := rfl
      obtain ⟨after, advances, twins⟩ := twin.advance same reads advanced
      refine ⟨after, ?_, twins⟩
      have whole := congrArg (fun result => (result.1, result.2.1, (if watch.verbose then
        [Event.row k (p.recordOf k st.point).objective (p.recordOf k st.point).gap] else [])
          ++ result.2.2)) advances
      exact whole

/-- And through the same runs of passes, by induction on the passes that are left. -/
theorem Twin.passes (same : p.SameProblem q) (reads : engine.ReadsGrid) (config : Config α)
    (watch : Watch α ε m n) (twin : Twin p q st other) (remaining k : Nat) (last : Option α)
    (seen : Array (Event α m n))
    : (other.passes q config watch remaining k last seen).1
        = (st.passes p config watch remaining k last seen).1
      ∧ Twin p q (st.passes p config watch remaining k last seen).2.1
          (other.passes q config watch remaining k last seen).2.1
      ∧ (other.passes q config watch remaining k last seen).2.2
        = (st.passes p config watch remaining k last seen).2.2 := by
  induction remaining generalizing k last st other seen with
  | zero => exact ⟨rfl, twin, rfl⟩
  | succ remaining ih =>
      cases passed : st.pass p config watch k with
      | mk outcome rest =>
          obtain ⟨next, events⟩ := rest
          obtain ⟨after, passes, twins⟩ := twin.pass same reads passed
          rw [State.passes, State.passes, passed, passes]
          cases outcome with
          | ended how => exact ⟨rfl, twins, rfl⟩
          | stepped gap => exact ih twins ..

/-- What comes after the passes does not tell them apart either. -/
theorem Twin.conclude (same : p.SameProblem q) (config : Config α) (twin : Twin p q st other)
    (how : PassEnd α ε) (seen : Array (Event α m n))
    : (other.conclude q config how seen).1 = (st.conclude p config how seen).1
      ∧ Twin p q (st.conclude p config how seen).2.1 (other.conclude q config how seen).2.1
      ∧ (other.conclude q config how seen).2.2 = (st.conclude p config how seen).2.2 := by
  obtain ⟨jacobian, rfl⟩ : ∃ jacobian, other = st.withJacobian jacobian := ⟨_, twin.rest⟩
  obtain ⟨_, room, other_room⟩ := twin
  cases how with
  | accepted =>
      refine ⟨congrArg Ending.converged ?_, ⟨rfl, room, other_room⟩, rfl⟩
      simp only [State.result, LinearProgram.objective, LinearProgram.dualObjective, same.cost,
        same.rightSide]
      rfl
  | exhausted | failed | interrupted => exact ⟨rfl, ⟨rfl, room, other_room⟩, rfl⟩

/-- Two solves of programs with one matrix end alike, with the same events, and leave solvers that
differ in their Jacobians alone.
-/
theorem Twin.solve (same : p.SameProblem q) (reads : engine.ReadsGrid) (config : Config α)
    (watch : Watch α ε m n) (twin : Twin p q st other)
    : (other.solve q config watch).1 = (st.solve p config watch).1
      ∧ Twin p q (st.solve p config watch).2.1 (other.solve q config watch).2.1
      ∧ (other.solve q config watch).2.2 = (st.solve p config watch).2.2 := by
  obtain ⟨jacobian, rfl⟩ : ∃ jacobian, other = st.withJacobian jacobian := ⟨_, twin.rest⟩
  obtain ⟨_, room, other_room⟩ := twin
  cases start : p.startingPoint with
  | error fault =>
      have other_start := same.startingPoint_eq.symm.trans start
      rw [solve_unstarted start, solve_unstarted other_start]
      exact ⟨rfl, ⟨rfl, room, other_room⟩, rfl⟩
  | ok y =>
      have other_start := same.startingPoint_eq.symm.trans start
      have twin : Twin p q (st.startedAt y) ((st.withJacobian jacobian).startedAt y) :=
        ⟨rfl, room, other_room⟩
      have run := twin.passes same reads config watch config.iterationLimit 0 none
        (if watch.verbose then #[.header] else #[])
      rw [solve_eq_conclude start, solve_eq_conclude other_start]
      dsimp only
      generalize (st.startedAt y).passes p config watch _ 0 none _ = ended at run ⊢
      generalize ((st.withJacobian jacobian).startedAt y).passes q config watch _ 0 none _
        = other_ended at run ⊢
      obtain ⟨how, next, seen⟩ := ended
      obtain ⟨_, other_next, _⟩ := other_ended
      obtain ⟨rfl, twins, rfl⟩ := run
      exact twins.conclude same config _ _

-----------------------------------------------------------------------------------------
-- From what is handed over to how it ends
-----------------------------------------------------------------------------------------

/-- A caller sees the same of two solves: how they end, with one report or one error, their
histories, how far they counted, where they are, and what happened in between.
-/
structure SameOutcome (run other : Ending α ε m n × State engine m n × Array (Event α m n))
    : Prop where
  ending : run.1 = other.1
  history : run.2.1.history = other.2.1.history
  iterations : run.2.1.iterations = other.2.1.iterations
  point : run.2.1.point = other.2.1.point
  events : run.2.2 = other.2.2

omit [Field α] [LinearOrder α] in
/-- Twins are told apart by their Jacobians alone, which no caller sees in a report. -/
theorem Twin.sameOutcome {p q : LinearProgram α m n}
    {run other : Ending α ε m n × State engine m n × Array (Event α m n)}
    (ending : other.1 = run.1) (twin : Twin p q run.2.1 other.2.1) (events : other.2.2 = run.2.2)
    : SameOutcome run other := by
  constructor
  · exact ending.symm
  · rw [twin.rest]
    rfl
  · rw [twin.rest]
    rfl
  · rw [twin.rest]
    rfl
  · exact events.symm

/-- New solvers of two programs that ask for the same do the same. -/
theorem sameOutcome_initial (same : p.SameProblem q) (kind : Direct)
    (backend : Backend (kind.engine (α := α)) (Target α)) (config : Config α)
    (watch : Watch α ε m n)
    : SameOutcome ((initial p backend).solve p config watch)
        ((initial q backend).solve q config watch) := by
  have twin : Twin p q (initial p backend) (initial q backend) := ⟨rfl, le_rfl, le_rfl⟩
  obtain ⟨ending, twins, events⟩ := twin.solve same kind.readsGrid config watch
  exact twins.sameOutcome ending events

omit [LinearOrder α] in
/-- Two matrices that are the same make, with the same vectors, the same fault or two programs that
ask for the same.
-/
theorem exists_sameProblem {columns held : Columns α m n}
    (matrix : Entries.toMatrix columns.entries = Entries.toMatrix held.entries) (b c : List α)
    : (∃ fault,
          AnyProgram.of ⟨m, n, columns⟩ b c = .error fault
          ∧ AnyProgram.of ⟨m, n, held⟩ b c = .error fault)
      ∨ ∃ p q : LinearProgram α m n,
          AnyProgram.of ⟨m, n, columns⟩ b c = .ok ⟨m, n, p⟩
          ∧ AnyProgram.of ⟨m, n, held⟩ b c = .ok ⟨m, n, q⟩
          ∧ p.SameProblem q := by
  simp only [AnyProgram.of]
  split
  · exact .inl ⟨_, rfl, rfl⟩
  · split
    · exact .inr ⟨_, _, rfl, rfl, matrix, rfl, rfl⟩
    · exact .inl ⟨_, rfl, rfl⟩

/-- A solve depends on the matrix alone. Two sources that mean one matrix are both accepted. With
vectors that do not fit they are refused for the same reason; with vectors that do, they make two
programs, and whatever the direct engine, the configuration and the watch, new solvers of these
programs end alike, with equal results or with the same error, and with equal histories.
-/
theorem solve_ignores_storage {source other : MatrixSource α} {a : Matrix (Fin m) (Fin n) α}
    (means : source.Denotes a) (other_means : other.Denotes a) (b c : List α)
    : ∃ columns held : Columns α m n,
        source.toSparse = .ok ⟨m, n, columns⟩
        ∧ other.toSparse = .ok ⟨m, n, held⟩
        ∧ ((∃ fault,
              AnyProgram.of ⟨m, n, columns⟩ b c = .error fault
              ∧ AnyProgram.of ⟨m, n, held⟩ b c = .error fault)
          ∨ ∃ p q : LinearProgram α m n,
              AnyProgram.of ⟨m, n, columns⟩ b c = .ok ⟨m, n, p⟩
              ∧ AnyProgram.of ⟨m, n, held⟩ b c = .ok ⟨m, n, q⟩
              ∧ ∀ (kind : Direct) (backend : Backend (kind.engine (α := α)) (Target α))
                  (config : Config α) {ε : Type} (watch : Watch α ε m n),
                  SameOutcome ((initial p backend).solve p config watch)
                    ((initial q backend).solve q config watch)) := by
  obtain ⟨columns, accepted, rfl⟩ := (source.denotes_iff a).mp means
  obtain ⟨held, other_accepted, matrix⟩ := (other.denotes_iff _).mp other_means
  refine ⟨columns, held, accepted, other_accepted, ?_⟩
  rcases exists_sameProblem matrix.symm b c with refused | ⟨p, q, made, other_made, same⟩
  · exact .inl refused
  · refine .inr ⟨p, q, made, other_made, ?_⟩
    intro kind backend config ε watch
    exact sameOutcome_initial same kind backend config watch

end State

end Field

section Sample

/-- One row of two numbers, written out. -/
def MatrixSource.sampleRows : MatrixSource ℚ :=
  .nested (.lines [[1, 0]])

/-- The same row by coordinates, with a repeated position and a zero that is stored. -/
def MatrixSource.sampleCoordinates : MatrixSource ℚ :=
  .coordinates ⟨1, 2, [⟨.last 0, 0, 3⟩, ⟨.last 0, 1, 0⟩, ⟨.last 0, 0, -2⟩]⟩

/-- The two store different numbers of entries, and a solver of either does the same. -/
theorem State.solve_ignores_storage_sample
    : ∃ (a : Matrix (Fin 1) (Fin 2) ℚ) (columns held : Columns ℚ 1 2),
        MatrixSource.sampleRows.Denotes a
        ∧ MatrixSource.sampleCoordinates.Denotes a
        ∧ MatrixSource.sampleRows.toSparse = .ok ⟨1, 2, columns⟩
        ∧ MatrixSource.sampleCoordinates.toSparse = .ok ⟨1, 2, held⟩
        ∧ columns.count = 1
        ∧ held.count = 2
        ∧ ∃ p q : LinearProgram ℚ 1 2,
            AnyProgram.of ⟨1, 2, columns⟩ [4] [-1, -2] = .ok ⟨1, 2, p⟩
            ∧ AnyProgram.of ⟨1, 2, held⟩ [4] [-1, -2] = .ok ⟨1, 2, q⟩
            ∧ SameOutcome
                ((State.initial p (.fresh (Direct.engine .dense) ())).solve p .sample
                  (.silent : Watch ℚ Empty 1 2))
                ((State.initial q (.fresh (Direct.engine .dense) ())).solve q .sample .silent) := by
  let es : List (Entry ℚ 1 2) := [⟨0, 0, 3⟩, ⟨0, 1, 0⟩, ⟨0, 0, -2⟩]
  have coordinates : MatrixSource.sampleCoordinates.Denotes (Entries.toMatrix es) :=
    .coordinates es rfl
  have rows : MatrixSource.sampleRows.Denotes (Entries.toMatrix es) := by
    refine .nested [[1, 0]] (by decide) rfl (by decide) fun i j => ?_
    fin_cases i
    fin_cases j <;> decide +kernel
  obtain ⟨columns, held, accepted, other_accepted, made⟩ :=
    solve_ignores_storage rows coordinates [4] [-1, -2]
  have count : MatrixSource.sampleRows.toSparse.toOption.map (·.columns.count) = some 1 := by
    decide +kernel
  have other_count
      : MatrixSource.sampleCoordinates.toSparse.toOption.map (·.columns.count) = some 2 := by
    decide +kernel
  rw [accepted] at count
  rw [other_accepted] at other_count
  refine ⟨_, columns, held, rows, coordinates, accepted, other_accepted, Option.some.inj count,
    Option.some.inj other_count, ?_⟩
  rcases made with ⟨_, refused, _⟩ | ⟨p, q, first, second, alike⟩
  · cases refused
  · exact ⟨p, q, first, second, alike .dense (.fresh _ ()) .sample .silent⟩

end Sample

end InteriorPoint
