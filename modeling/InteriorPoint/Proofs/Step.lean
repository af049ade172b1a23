import InteriorPoint.Proofs.RatioTest

/-! What a predictor-corrector step does when it succeeds, and that it stays in the interior. The
two linear solves may answer with any vectors: only the ratio tests on them matter.
-/

namespace InteriorPoint

variable {α σ : Type} {engine : Engine α σ} {m n : Nat}

section Cases

variable [Zero α] [Sub α] [LE α] [DecidableLE α]

/-- A solve for the direction that succeeds changes the direction and the backend alone. -/
theorem State.solveDirection_ok {st next : State engine m n} {notices : List Notice}
    (h : st.solveDirection = (.ok (), next, notices))
    : ∃ d, (st.backend.solve false st.residual.flatten).result = .ok d
        ∧ next = { st with
            direction := .ofFlat d
            backend := (st.backend.solve false st.residual.flatten).backend } := by
  simp only [solveDirection] at h
  split at h
  · simp at h
  · next d result =>
      obtain ⟨rfl, -⟩ := Prod.mk.inj (Prod.mk.inj h).2
      exact ⟨d, result, rfl⟩

/-- Whether it succeeds or not, a solve for the direction leaves all but direction and backend. -/
theorem State.solveDirection_leaves {st next : State engine m n}
    {result : Except BackendError Unit} {notices : List Notice}
    (h : st.solveDirection = (result, next, notices))
    : next = { st with direction := next.direction, backend := next.backend } := by
  simp only [solveDirection] at h
  split at h
  · obtain ⟨rfl, -⟩ := Prod.mk.inj (Prod.mk.inj h).2
    rfl
  · obtain ⟨rfl, -⟩ := Prod.mk.inj (Prod.mk.inj h).2
    rfl

variable [One α] [Add α] [Mul α] [Div α] [NatCast α] [LT α] [DecidableLT α]

/-- A step that succeeds: a solve for the affine direction, the centering parameter that follows
from it, a solve with the corrected residual, and a move by the lengths of the ratio tests.
-/
theorem State.step_ok {st next : State engine m n} {mu : α} {taken : Step α}
    {notices : List Notice} (h : st.step mu = (.ok taken, next, notices))
    : ∃ predicted corrected : State engine m n, ∃ first second : List Notice,
        st.solveDirection = (.ok (), predicted, first)
        ∧ centering mu predicted.affineMeasure = .ok taken.sigma
        ∧ (predicted.correct taken.sigma mu).solveDirection = (.ok (), corrected, second)
        ∧ taken.primalLength = shortLength (minRatio? corrected.point.x corrected.direction.x)
        ∧ taken.dualLength = shortLength (minRatio? corrected.point.s corrected.direction.s)
        ∧ next = corrected.move taken.primalLength taken.dualLength := by
  simp only [step] at h
  split at h
  · simp at h
  · next predicted first solved =>
      split at h
      · simp at h
      · next sigma centered =>
          split at h
          · simp at h
          · next corrected second again =>
              simp only [minRatios, Prod.mk.injEq, Except.ok.injEq] at h
              obtain ⟨rfl, rfl, -⟩ := h
              exact ⟨predicted, corrected, first, second, solved, centered, again, rfl, rfl, rfl⟩

/-- Whether it succeeds or not, a step leaves the Jacobian, the history and the count of the
iterations.
-/
theorem State.step_leaves {st next : State engine m n} {mu : α}
    {result : Except StepFault (Step α)} {notices : List Notice}
    (h : st.step mu = (result, next, notices))
    : next = { st with
        point := next.point
        direction := next.direction
        residual := next.residual
        backend := next.backend } := by
  simp only [step] at h
  split at h
  · next solved =>
      obtain ⟨rfl, -⟩ := Prod.mk.inj (Prod.mk.inj h).2
      rw [solveDirection_leaves solved]
  · next solved =>
      have first := solveDirection_leaves solved
      split at h
      · obtain ⟨rfl, -⟩ := Prod.mk.inj (Prod.mk.inj h).2
        rw [first]
      · split at h
        · next again =>
            obtain ⟨rfl, -⟩ := Prod.mk.inj (Prod.mk.inj h).2
            rw [solveDirection_leaves again, first]
            rfl
        · next again =>
            obtain ⟨rfl, -⟩ := Prod.mk.inj (Prod.mk.inj h).2
            rw [solveDirection_leaves again, first]
            rfl

/-- The places at which a step fails, and how far it has come there. -/
inductive State.FailedStep (st : State engine m n) (mu : α) (fault : StepFault)
    (next : State engine m n)
    : Prop
  | predictor (e : BackendError) (notices : List Notice) (fault_eq : fault = .backend e)
    (refused : st.solveDirection = (.error e, next, notices))
  | centering (notices : List Notice)
    (predicted : st.solveDirection = (.ok (), next, notices))
    (refused : centering mu next.affineMeasure = .error fault)
  | corrector (e : BackendError) (sigma : α) (predicted : State engine m n)
    (first second : List Notice) (fault_eq : fault = .backend e)
    (solved : st.solveDirection = (.ok (), predicted, first))
    (centered : InteriorPoint.centering mu predicted.affineMeasure = .ok sigma)
    (refused : (predicted.correct sigma mu).solveDirection = (.error e, next, second))

theorem State.step_failedStep {st next : State engine m n} {mu : α} {fault : StepFault}
    {notices : List Notice} (h : st.step mu = (.error fault, next, notices))
    : st.FailedStep mu fault next := by
  simp only [step] at h
  split at h
  · next refused =>
      cases h
      exact .predictor _ _ rfl refused
  · next solved =>
      split at h
      · next refused =>
          cases h
          exact .centering _ solved refused
      · next centered =>
          split at h
          · next refused =>
              cases h
              exact .corrector _ _ _ _ _ rfl solved centered refused
          · cases h

/-- A step that fails leaves the point and the history as they were, wherever it fails. -/
theorem State.step_error {st next : State engine m n} {mu : α} {fault : StepFault}
    {notices : List Notice} (h : st.step mu = (.error fault, next, notices))
    : next.point = st.point ∧ next.history = st.history := by
  refine ⟨?_, by rw [step_leaves h]⟩
  cases step_failedStep h with
  | predictor _ _ _ refused => rw [solveDirection_leaves refused]
  | centering _ predicted _ => rw [solveDirection_leaves predicted]
  | corrector _ _ _ _ _ _ solved _ refused =>
      rw [solveDirection_leaves refused, solveDirection_leaves solved]
      rfl

end Cases

variable [Field α] [LinearOrder α] [IsStrictOrderedRing α]

/-- Variables and slacks that are not negative. -/
structure Blocks.IsNonnegative (y : Blocks α m n) : Prop where
  x : 0 ≤ y.x.get
  s : 0 ≤ y.s.get

/-- Variables and slacks that are positive. -/
structure Blocks.IsInterior (y : Blocks α m n) : Prop where
  x : ∀ i, 0 < y.x.get i
  s : ∀ i, 0 < y.s.get i

/-- The affine step ends within the boundary, so it leaves no negative duality measure. -/
theorem State.affineMeasure_nonneg {st : State engine m n} (hy : st.point.IsNonnegative)
    : 0 ≤ st.affineMeasure := by
  have inside {v d : Vector α n} (hv : 0 ≤ v.get)
      : 0 ≤ (descend v (unitLength (minRatio? v d)) d).get := by
    have safe := cutLength_isSafe (d := d) zero_le_one hv
    rw [unitLength_eq_cutLength]
    simpa using safe.rest_le_descend
  simp only [affineMeasure, minRatios]
  rw [dot_eq_dotProduct]
  exact div_nonneg (dotProduct_nonneg_of_nonneg (inside hy.x) (inside hy.s)) (Nat.cast_nonneg n)

/-- A power of a quotient that is not negative; a measure that is not positive gives zero. -/
theorem centering_nonneg {mu affine sigma : α} (haffine : 0 ≤ affine)
    (h : centering mu affine = .ok sigma)
    : 0 ≤ sigma := by
  simp only [centering, isFinite_eq_true, power_eq_pow] at h
  split at h
  · next positive =>
      obtain rfl := Except.ok.inj h
      exact pow_nonneg (div_nonneg haffine positive.le) _
  · obtain rfl := Except.ok.inj h
    exact le_rfl

/-- What a step guarantees on its way from a point that is not negative: lengths between zero and
one, and of every variable and slack the share that the step fraction leaves. From the interior
it moves, and stays there.
-/
structure StaysInside (before after : Blocks α m n) (taken : Step α) : Prop where
  sigma_nonneg : 0 ≤ taken.sigma
  primalLength_nonneg : 0 ≤ taken.primalLength
  primalLength_le_one : taken.primalLength ≤ 1
  dualLength_nonneg : 0 ≤ taken.dualLength
  dualLength_le_one : taken.dualLength ≤ 1
  rest_x : (1 - stepFraction : α) • before.x.get ≤ after.x.get
  rest_s : (1 - stepFraction : α) • before.s.get ≤ after.s.get
  interior
    : before.IsInterior
      → 0 < taken.primalLength ∧ 0 < taken.dualLength ∧ after.IsInterior

/-- What is left of a positive entry is positive. -/
theorem pos_of_rest_le {v w : Vector α n} (hv : ∀ i, 0 < v.get i)
    (rest : (1 - stepFraction : α) • v.get ≤ w.get) (i : Fin n)
    : 0 < w.get i :=
  (mul_pos (sub_pos.mpr stepFraction_lt_one) (hv i)).trans_le (rest i)

theorem nonneg_of_rest_le {v w : Vector α n} (hv : 0 ≤ v.get)
    (rest : (1 - stepFraction : α) • v.get ≤ w.get)
    : 0 ≤ w.get := by
  intro i
  exact (mul_nonneg (sub_pos.mpr stepFraction_lt_one).le (hv i)).trans (rest i)

/-- Every step that succeeds stays inside, whatever the backend answered. -/
theorem State.step_staysInside {st next : State engine m n} {mu : α} {taken : Step α}
    {notices : List Notice} (hy : st.point.IsNonnegative)
    (h : st.step mu = (.ok taken, next, notices))
    : StaysInside st.point next.point taken := by
  obtain ⟨predicted, corrected, _, _, first, centered, second, primal, dual, rfl⟩ := step_ok h
  -- Both solves leave the point, so the ratio tests are those of the point before the step.
  obtain ⟨d, -, rfl⟩ := solveDirection_ok first
  obtain ⟨e, -, rfl⟩ := solveDirection_ok second
  have sigma_nonneg : 0 ≤ taken.sigma := by
    refine centering_nonneg ?_ centered
    exact affineMeasure_nonneg hy
  have safeX := cutLength_isSafe (d := (Blocks.ofFlat e).x) stepFraction_pos.le hy.x
  have safeS := cutLength_isSafe (d := (Blocks.ofFlat e).s) stepFraction_pos.le hy.s
  rw [shortLength_eq_cutLength] at primal dual
  simp only [correct] at primal dual
  rw [← primal] at safeX
  rw [← dual] at safeS
  exact {
    sigma_nonneg
    primalLength_nonneg := safeX.nonneg
    primalLength_le_one := safeX.le_one
    dualLength_nonneg := safeS.nonneg
    dualLength_le_one := safeS.le_one
    rest_x := safeX.rest_le_descend
    rest_s := safeS.rest_le_descend
    interior := by
      intro inside
      refine ⟨?_, ?_, ?_, ?_⟩
      · rw [primal]
        exact cutLength_pos stepFraction_pos inside.x
      · rw [dual]
        exact cutLength_pos stepFraction_pos inside.s
      · exact pos_of_rest_le inside.x safeX.rest_le_descend
      · exact pos_of_rest_le inside.s safeS.rest_le_descend
  }

end InteriorPoint
