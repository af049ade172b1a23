import InteriorPoint.Proofs.Interior
import InteriorPoint.Proofs.Jacobian
import InteriorPoint.Proofs.Nonsingular

/-! Solves that start in the interior do not break down. With independent rows the Jacobian is
nonsingular at every point in the interior, no run leaves the interior, and a reliable engine fails
on singular matrices alone, so each pass gets through all of its phases.
-/

namespace InteriorPoint

open scoped Matrix

variable {α σ ε : Type} [Field α] [LinearOrder α] [IsStrictOrderedRing α]
  {engine : Engine α σ} {m n : Nat}

-----------------------------------------------------------------------------------------
-- The Jacobian is nonsingular in the interior
-----------------------------------------------------------------------------------------

section Jacobian

/-- Moves of opposite signs whose products add up to zero are zero. -/
theorem eq_zero_of_opposite {x s dx ds : Fin n → α} (hx : ∀ i, 0 < x i) (hs : ∀ i, 0 < s i)
    (opposite : ∀ i, s i * dx i + x i * ds i = 0) (orthogonal : dx ⬝ᵥ ds = 0)
    : dx = 0 ∧ ds = 0 := by
  have product (i : Fin n) : x i * -(dx i * ds i) = s i * dx i ^ 2 := by
    have moved : x i * ds i = -(s i * dx i) := by
      rw [eq_neg_iff_add_eq_zero, add_comm]
      exact opposite i
    calc x i * -(dx i * ds i) = -(dx i * (x i * ds i)) := by ring
      _ = s i * dx i ^ 2 := by
          rw [moved]
          ring
  have nonneg (i : Fin n) : 0 ≤ -(dx i * ds i) := by
    refine nonneg_of_mul_nonneg_right ?_ (hx i)
    rw [product i]
    exact mul_nonneg (hs i).le (sq_nonneg _)
  have total : ∑ i, -(dx i * ds i) = 0 := by
    rw [Finset.sum_neg_distrib, neg_eq_zero]
    exact orthogonal
  have vanish (i : Fin n) : -(dx i * ds i) = 0 :=
    (Finset.sum_eq_zero_iff_of_nonneg fun i _ => nonneg i).mp total i (Finset.mem_univ i)
  have first (i : Fin n) : dx i = 0 := by
    have square := product i
    rw [vanish i, mul_zero] at square
    rcases mul_eq_zero.mp square.symm with slack | square
    · exact absurd slack (hs i).ne'
    · exact pow_eq_zero_iff two_ne_zero |>.mp square
  refine ⟨funext first, funext fun i => ?_⟩
  have second := opposite i
  rw [first i, mul_zero, zero_add] at second
  exact (mul_eq_zero.mp second).resolve_left (hx i).ne'

/-- At a point in the interior the Jacobian takes no direction but zero to zero. -/
theorem LinearProgram.jacobian_det_ne_zero {p : LinearProgram α m n}
    (independent : LinearIndependent α p.toMatrix.row) {y : Blocks α m n} (hy : y.IsInterior)
    : (Entries.toMatrix (p.matrix.jacobianEntries y.x y.s)).det ≠ 0 := by
  refine det_ne_zero_of_kernel fun v vanishes => ?_
  obtain ⟨d, rfl⟩ : ∃ d : Blocks α m n, d.flatten.get = v :=
    ⟨.ofFlat (Vector.ofFn v), by rw [Blocks.flatten_ofFlat, get_ofFn]⟩
  have dual : p.toMatrixᵀ *ᵥ d.lam.get + d.s.get = 0 := by
    funext i
    have row := congrFun vanishes (Blocks.xPlace i)
    rwa [p.jacobian_mulVec_xPlace] at row
  have primal : p.toMatrix *ᵥ d.x.get = 0 := by
    funext i
    have row := congrFun vanishes (Blocks.lamPlace i)
    rwa [p.jacobian_mulVec_lamPlace] at row
  have opposite (i : Fin n) : y.s.get i * d.x.get i + y.x.get i * d.s.get i = 0 := by
    have row := congrFun vanishes (Blocks.sPlace i)
    rwa [p.jacobian_mulVec_sPlace] at row
  have orthogonal : d.x.get ⬝ᵥ d.s.get = 0 := by
    have slacks : d.s.get = -(p.toMatrixᵀ *ᵥ d.lam.get) := by
      rw [eq_neg_iff_add_eq_zero, add_comm]
      exact dual
    rw [slacks, dotProduct_neg, Matrix.mulVec_transpose, dotProduct_comm,
      ← Matrix.dotProduct_mulVec, primal, dotProduct_zero, neg_zero]
  obtain ⟨dx, ds⟩ := eq_zero_of_opposite hy.x hy.s opposite orthogonal
  rw [ds, add_zero] at dual
  have dlam := eq_zero_of_independent independent dual
  funext k
  cases k using Blocks.placeCases with
  | x i => rw [Blocks.flatten_get_xPlace, dx]; rfl
  | lam i => rw [Blocks.flatten_get_lamPlace, dlam]; rfl
  | s i => rw [Blocks.flatten_get_sPlace, ds]; rfl

end Jacobian

-----------------------------------------------------------------------------------------
-- With a reliable engine every phase of a pass succeeds
-----------------------------------------------------------------------------------------

section Phases

omit [IsStrictOrderedRing α]

namespace Backend

variable {τ : Type} {b : Backend engine τ}

theorem exists_solve (reliable : engine.IsReliable) {target : τ} {size : Nat}
    {factors : engine.Factors size} (phase : b.phase = .factorized target size factors)
    (transposed : Bool) (rhs : Vector α size)
    : ∃ x, (b.solve transposed rhs).result = .ok x := by
  obtain ⟨x, after, answered⟩ := reliable.solves factors transposed rhs b.state
  have finite : allFinite x = true := by
    simp [allFinite]
  exact ⟨x, by simp [solve, phase, solveWith, answered, finite]⟩

omit [LinearOrder α] in
theorem factorize_succeeds (reliable : engine.IsReliable) {target : τ}
    (bound : b.target? = some target) (read : τ → SquareTriplet α)
    (nonsingular : (Entries.toMatrix (read target).content.entries).det ≠ 0)
    : (b.factorize read).result = .ok () := by
  obtain ⟨factors, after, made⟩ := reliable.factorizes (read target).content b.state nonsingular
  simp [factorize, bound, made]

end Backend

/-- Over a field no quotient and no power is infinite. -/
theorem exists_centering (mu affine : α)
    : ∃ sigma, centering mu affine = .ok sigma := by
  simp only [centering, isFinite_eq_true]
  split
  · exact ⟨_, rfl⟩
  · exact ⟨_, rfl⟩

namespace State

variable {st : State engine m n}

theorem solveDirection_succeeds (reliable : engine.IsReliable) {target : Target α}
    {factors : engine.Factors (n + m + n)}
    (phase : st.backend.phase = .factorized target (n + m + n) factors)
    : st.solveDirection.1 = .ok () := by
  obtain ⟨d, answered⟩ := Backend.exists_solve reliable phase false st.residual.flatten
  simp only [solveDirection, answered]

/-- A step with factors at hand succeeds: its second solve finds the same factors as its first. -/
theorem step_succeeds (reliable : engine.IsReliable) {target : Target α}
    {factors : engine.Factors (n + m + n)}
    (phase : st.backend.phase = .factorized target (n + m + n) factors) (mu : α)
    : ∃ taken, (st.step mu).1 = .ok taken := by
  have first : st.solveDirection = (.ok (), st.solveDirection.2) :=
    Prod.ext (solveDirection_succeeds reliable phase) rfl
  obtain ⟨d, -, predicted⟩ := solveDirection_ok first
  obtain ⟨sigma, centered⟩ := exists_centering mu st.solveDirection.2.1.affineMeasure
  have kept
      : (st.solveDirection.2.1.correct sigma mu).backend.phase
        = .factorized target (n + m + n) factors := by
    rw [predicted]
    exact (Backend.phase_solve ..).trans phase
  have second
      : (st.solveDirection.2.1.correct sigma mu).solveDirection
        = (.ok (), (st.solveDirection.2.1.correct sigma mu).solveDirection.2) :=
    Prod.ext (solveDirection_succeeds reliable kept) rfl
  rw [step, first]
  dsimp only
  rw [centered]
  dsimp only
  rw [second]
  exact ⟨_, rfl⟩

/-- A step that succeeds leaves the Jacobian. -/
theorem jacobian_of_step {next : State engine m n} {mu : α} {taken : Step α}
    {notices : List Notice} (h : st.step mu = (.ok taken, next, notices))
    : next.jacobian = st.jacobian := by
  obtain ⟨predicted, corrected, _, _, first, -, second, -, -, rfl⟩ := step_ok h
  obtain ⟨d, -, rfl⟩ := solveDirection_ok first
  obtain ⟨e, -, rfl⟩ := solveDirection_ok second
  rfl

omit [LinearOrder α] in
/-- A backend that is bound to a nonsingular Jacobian by then can be made ready for a pass. -/
theorem prepare_succeeds (reliable : engine.IsReliable) (hn : 0 < n) (st : State engine m n)
    {iteration : Nat} (bound : iteration = 0 ∨ st.backend.target? = some .jacobian)
    (nonsingular : (Entries.toMatrix st.jacobian.entries).det ≠ 0) (timing : Bool)
    : (st.prepare iteration timing).1 = .ok () := by
  by_cases first : iteration = 0
  · have square : ¬(n + m + n ≠ n + m + n ∨ n + m + n = 0) := by omega
    have attached : (st.attach false timing).1 = .ok () := by
      rw [attach, Backend.attach, if_neg square]
    have target := Backend.attach_ok attached
    have read_eq : (st.attach false timing).2.1.read .jacobian = ⟨n + m + n, st.jacobian⟩ := rfl
    have made := Backend.factorize_succeeds reliable target (st.attach false timing).2.1.read
      nonsingular
    have whole : st.attach false timing = (.ok (), (st.attach false timing).2) :=
      Prod.ext attached rfl
    rw [prepare, if_pos first, whole]
    exact made
  · have target := bound.resolve_left first
    have made := Backend.factorize_succeeds reliable target st.read nonsingular
    rw [prepare, if_neg first]
    exact made

end State

end Phases

-----------------------------------------------------------------------------------------
-- A run from the interior ends in order
-----------------------------------------------------------------------------------------

section Run

/-- The observer answers some record by breaking the solve off. -/
def Watch.BreaksOff (watch : Watch α ε m n) (e : ε) : Prop :=
  ∃ observer ∈ watch.observer, ∃ record point, observer record point = .error e

omit [Field α] [LinearOrder α] [IsStrictOrderedRing α] in
theorem Watch.breaksOff_of_observe {watch : Watch α ε m n} {record : Record α}
    {point : Blocks α m n} {e : ε} (h : (watch.observe record point).1 = .error e)
    : watch.BreaksOff e := by
  cases asked : watch.observer with
  | none => simp [observe, asked] at h
  | some observer =>
      refine ⟨observer, asked, record, point, ?_⟩
      simpa [observe, asked] using h

namespace State

/-- A state in which the next pass finds all that it needs: a point in the interior, room for the
Jacobian, and a backend that is bound to it from the second pass on. Every pass before has noted
its record.
-/
structure IsFit (p : LinearProgram α m n) (k : Nat) (st : State engine m n) : Prop where
  interior : st.point.IsInterior
  room : p.jacobianCapacity ≤ st.jacobian.capacity
  bound : k = 0 ∨ st.backend.target? = some .jacobian
  size_eq : st.history.size = k

/-- In the interior the part of a pass after its test gets through all of its phases. -/
theorem advance_of_interior (reliable : engine.IsReliable) (hn : 0 < n)
    {p : LinearProgram α m n} (independent : LinearIndependent α p.toMatrix.row)
    {watch : Watch α ε m n} {record : Record α} {st next : State engine m n}
    {outcome : Pass α ε} {events : List (Event α m n)}
    (h : st.advance p watch record = (outcome, next, events)) (interior : st.point.IsInterior)
    (room : p.jacobianCapacity ≤ st.jacobian.capacity)
    (bound : record.iteration = 0 ∨ st.backend.target? = some .jacobian)
    : next.jacobian.capacity = st.jacobian.capacity
        ∧ ∀ how, outcome = .ended how → ∃ e, how = .interrupted e ∧ watch.BreaksOff e := by
  let placed : State engine m n := {
    st with jacobian := {
      st.jacobian with entries := p.matrix.jacobianEntries st.point.x st.point.s } }
  have assembled : st.updateJacobian p = .ok placed := by
    rw [updateJacobian, p.assemble_eq st.point room]
    rfl
  have nonsingular := LinearProgram.jacobian_det_ne_zero independent interior
  have prepared
      : placed.prepare record.iteration watch.timing
        = (.ok (), (placed.prepare record.iteration watch.timing).2) :=
    Prod.ext (prepare_succeeds reliable hn placed bound nonsingular watch.timing) rfl
  generalize (placed.prepare record.iteration watch.timing).2 = rest at prepared
  obtain ⟨ready, first⟩ := rest
  obtain ⟨target, factors, before, after, ready_eq, made, phase, jacobian_eq⟩ :=
    prepare_ok prepared
  obtain rfl := jacobian_eq bound
  obtain ⟨taken, stepped⟩ := step_succeeds reliable phase record.mu
  have moved : ready.step record.mu = (.ok taken, (ready.step record.mu).2) :=
    Prod.ext stepped rfl
  generalize (ready.step record.mu).2 = rest at moved
  obtain ⟨final, second⟩ := rest
  have kept : final.jacobian.capacity = st.jacobian.capacity := by
    rw [jacobian_of_step moved, ready_eq]
  rw [advance, assembled] at h
  dsimp only at h
  rw [prepared] at h
  dsimp only at h
  rw [moved] at h
  obtain ⟨outcome_eq, rest⟩ := Prod.mk.inj h
  obtain ⟨rfl, -⟩ := Prod.mk.inj rest
  refine ⟨kept, ?_⟩
  rintro how rfl
  split at outcome_eq
  · simp at outcome_eq
  · next e answer =>
      exact ⟨e, (Pass.ended.inj outcome_eq).symm, Watch.breaksOff_of_observe answer⟩

/-- A pass from such a state leads to one for the next pass, or ends in order. -/
theorem IsFit.pass (reliable : engine.IsReliable) (hn : 0 < n) {p : LinearProgram α m n}
    (independent : LinearIndependent α p.toMatrix.row) {config : Config α}
    {watch : Watch α ε m n} {k : Nat} {st next : State engine m n} {outcome : Pass α ε}
    {events : List (Event α m n)} (fit : st.IsFit p k)
    (h : st.pass p config watch k = (outcome, next, events))
    : (∀ gap, outcome = .stepped gap → next.IsFit p (k + 1))
        ∧ ∀ how, outcome = .ended how
          → how = .accepted ∨ ∃ e, how = .interrupted e ∧ watch.BreaksOff e := by
  have passed := pass_cases h
  simp only [State.pass] at h
  split at h
  · obtain ⟨rfl, -⟩ := Prod.mk.inj h
    refine ⟨by simp, ?_⟩
    rintro how ended
    split at ended
    · exact .inl (Pass.ended.inj ended).symm
    · next e answer =>
        exact .inr ⟨e, (Pass.ended.inj ended).symm, Watch.breaksOff_of_observe answer⟩
  · generalize advanced : advance p watch _ _ = result at h
    obtain ⟨reached, final, seen⟩ := result
    obtain ⟨rfl, rest⟩ := Prod.mk.inj h
    obtain ⟨rfl, -⟩ := Prod.mk.inj rest
    obtain ⟨capacity, ended⟩ :=
      advance_of_interior reliable hn independent advanced fit.interior fit.room fit.bound
    refine ⟨?_, fun how done => .inr (ended how done)⟩
    rintro gap rfl
    obtain ⟨rest_x, rest_s⟩ := passed.rest_le ⟨fun i => (fit.interior.x i).le,
      fun i => (fit.interior.s i).le⟩
    obtain ⟨record, history, -⟩ := passed.history_push
    exact {
      interior := ⟨pos_of_rest_le fit.interior.x rest_x, pos_of_rest_le fit.interior.s rest_s⟩
      room := capacity ▸ fit.room
      bound := by
        cases passed with
        | stopped _ outcome_eq => simp at outcome_eq
        | failed _ outcome_eq => simp at outcome_eq
        | moved _ _ _ _ _ _ bound => exact .inr (bound fit.bound)
      size_eq := by rw [history, Array.size_push, fit.size_eq]
    }

/-- A run from such a state ends as accepted, with all of its passes taken, or because its observer
wants it to.
-/
theorem IsFit.passes (reliable : engine.IsReliable) (hn : 0 < n) {p : LinearProgram α m n}
    (independent : LinearIndependent α p.toMatrix.row) (config : Config α)
    (watch : Watch α ε m n) {st : State engine m n} (fit : st.IsFit p 0)
    (seen : Array (Event α m n))
    : (st.passes p config watch config.iterationLimit 0 none seen).1 = .accepted
        ∨ (∃ gap, (st.passes p config watch config.iterationLimit 0 none seen).1 = .exhausted gap
          ∧ (st.passes p config watch config.iterationLimit 0 none seen).2.1.history.size
            = config.iterationLimit)
        ∨ ∃ e, (st.passes p config watch config.iterationLimit 0 none seen).1 = .interrupted e
          ∧ watch.BreaksOff e := by
  refine passes_induction (fun k st => st.IsFit p k)
    (fun how st => how = .accepted
      ∨ (∃ gap, how = .exhausted gap ∧ st.history.size = config.iterationLimit)
      ∨ ∃ e, how = .interrupted e ∧ watch.BreaksOff e) ?_ ?_ config.iterationLimit fit ?_
  · intro _ _ gap _ _ fit passed
    exact (fit.pass reliable hn independent passed).1 gap rfl
  · intro _ _ how _ _ fit passed
    exact ((fit.pass reliable hn independent passed).2 how rfl).imp_right .inr
  · intro _ gap fit
    exact .inr (.inl ⟨gap, rfl, fit.size_eq.trans (Nat.zero_add _)⟩)

/-- How a solve may end when nothing breaks down: with a result, with all of its passes taken, or
because its observer wants it to.
-/
inductive EndsInOrder (config : Config α) (watch : Watch α ε m n)
    : Ending α ε m n → State engine m n → Prop
  | converged (result : Result α m n) (final : State engine m n)
    : EndsInOrder config watch (.converged result) final
  | unconverged (gap : Option α) (final : State engine m n)
    (all_taken : final.history.size = config.iterationLimit)
    : EndsInOrder config watch (.unconverged config.iterationLimit gap) final
  | interrupted (e : ε) (final : State engine m n) (wanted : watch.BreaksOff e)
    : EndsInOrder config watch (.interrupted e) final

/-- A solve with a reliable engine that begins in the interior ends in order. -/
theorem solve_endsInOrder (reliable : engine.IsReliable) (hn : 0 < n) {p : LinearProgram α m n}
    (independent : LinearIndependent α p.toMatrix.row) (config : Config α)
    (watch : Watch α ε m n) {st : State engine m n}
    (room : p.jacobianCapacity ≤ st.jacobian.capacity) {y : Blocks α m n}
    (start : p.startingPoint = .ok y) (interior : y.IsInterior)
    : EndsInOrder config watch (st.solve p config watch).1 (st.solve p config watch).2.1 := by
  have fit : (st.startedAt y).IsFit p 0 := ⟨interior, room, .inl rfl, rfl⟩
  have ends := fit.passes reliable hn independent config watch
    (if watch.verbose then #[.header] else #[])
  rw [solve_of_start start]
  dsimp only
  split
  · exact .converged _ _
  · next gap exhausted =>
      refine .unconverged gap _ ?_
      rcases ends with accepted | ⟨_, -, all_taken⟩ | ⟨_, interrupted, -⟩
      · simp [exhausted] at accepted
      · exact all_taken
      · simp [exhausted] at interrupted
  · next failure failed =>
      simp [failed] at ends
  · next e interrupted =>
      refine .interrupted e _ ?_
      rcases ends with accepted | ⟨_, exhausted, -⟩ | ⟨other, same, wanted⟩
      · simp [interrupted] at accepted
      · simp [interrupted] at exhausted
      · simp [interrupted] at same
        exact same ▸ wanted

/-- With independent rows the Jacobian at a point in the interior is nonsingular, whatever a solver
held before, and a solve with a direct engine that begins in the interior ends in order.
-/
theorem noBreakdown (kind : Direct) (p : LinearProgram α m n) (hn : 0 < n)
    (independent : LinearIndependent α p.toMatrix.row)
    : (∀ (y : Blocks α m n) (t : Triplet α (n + m + n) (n + m + n)),
          y.IsInterior
          → p.HoldsJacobian t
          → ∃ next, p.assemble y t = .ok next ∧ next.toGrid.toMatrix.det ≠ 0)
        ∧ ∀ (config : Config α) (watch : Watch α ε m n) (y : Blocks α m n)
            (st : State (Direct.engine kind : Engine α Unit) m n),
            p.HoldsJacobian st.jacobian
            → p.startingPoint = .ok y
            → y.IsInterior
            → EndsInOrder config watch (st.solve p config watch).1
                (st.solve p config watch).2.1 := by
  constructor
  · intro y t interior held
    refine ⟨_, p.assemble_eq y held.capacity_eq.ge, ?_⟩
    rw [Triplet.toMatrix_toGrid]
    exact LinearProgram.jacobian_det_ne_zero independent interior
  · intro config watch y st held start interior
    exact solve_endsInOrder (Direct.engine_isReliable kind) hn independent config watch
      held.capacity_eq.ge start interior

/-- The sample program from its own starting point, which is in the interior. -/
theorem noBreakdown_sample
    : ∃ y, LinearProgram.sample.startingPoint = .ok y
      ∧ y.IsInterior
      ∧ (∃ next, LinearProgram.sample.assemble y sample.jacobian = .ok next
        ∧ next.toGrid.toMatrix.det ≠ 0)
      ∧ EndsInOrder .sample .silent (sample.solve .sample .sample .silent).1
          (sample.solve .sample .sample .silent).2.1 := by
  obtain ⟨y, start⟩ := exists_ok (x := LinearProgram.sample.startingPoint) (by decide +kernel)
  have interior : (LinearProgram.sample.startingPoint.toOption.getD (.filled 0)).IsInterior := by
    constructor <;> decide +kernel
  rw [start] at interior
  obtain ⟨nonsingular, solve⟩ := noBreakdown .dense .sample (by decide)
    LinearProgram.sample_independent
  exact ⟨y, start, interior, nonsingular y _ interior .empty,
    solve .sample .silent y sample .empty start interior⟩

end State

end Run

end InteriorPoint
