import InteriorPoint.Proofs.StartingPoint
import InteriorPoint.Proofs.Trajectory

/-! Runs stay in the interior. Each pass notes one record and leaves of every entry at least the
share that the step fraction leaves, so the length of the history bounds how far entries shrink.
-/

namespace InteriorPoint

variable {α σ ε : Type} [Field α] [LinearOrder α] [IsStrictOrderedRing α]
  {engine : Engine α σ} {m n : Nat}

namespace State

/-- A vector that does not move keeps more than a step would leave of it. -/
theorem rest_le_self {w : Fin n → α} (hw : 0 ≤ w)
    : (1 - stepFraction : α) • w ≤ w := by
  intro i
  have taken := mul_nonneg (stepFraction_pos (α := α)).le (hw i)
  simp only [Pi.smul_apply, smul_eq_mul, sub_mul, one_mul]
  linarith

/-- Every pass leaves of each entry at least the rest of a step, since it takes a step that does
or does not move at all.
-/
theorem PassCase.rest_le {p : LinearProgram α m n} {config : Config α} {iteration : Nat}
    {st next : State engine m n} {outcome : Pass α ε} (hy : st.point.IsNonnegative)
    (h : PassCase p config iteration st outcome next)
    : (1 - stepFraction : α) • st.point.x.get ≤ next.point.x.get
        ∧ (1 - stepFraction : α) • st.point.s.get ≤ next.point.s.get := by
  cases h with
  | stopped _ _ next_eq =>
      subst next_eq
      exact ⟨rest_le_self hy.x, rest_le_self hy.s⟩
  | failed _ _ point_eq =>
      rw [point_eq]
      exact ⟨rest_le_self hy.x, rest_le_self hy.s⟩
  | moved ready after taken _ ready_point _ _ step_eq _ point_eq =>
      have inside := step_staysInside (ready_point ▸ hy) step_eq
      rw [ready_point] at inside
      rw [point_eq]
      exact ⟨inside.rest_x, inside.rest_s⟩

/-- So no pass leaves a negative entry. -/
theorem PassCase.isNonnegative {p : LinearProgram α m n} {config : Config α} {iteration : Nat}
    {st next : State engine m n} {outcome : Pass α ε} (hy : st.point.IsNonnegative)
    (h : PassCase p config iteration st outcome next)
    : next.point.IsNonnegative := by
  obtain ⟨rest_x, rest_s⟩ := h.rest_le hy
  exact ⟨nonneg_of_rest_le hy.x rest_x, nonneg_of_rest_le hy.s rest_s⟩

/-- No pass of a solve comes to a point with a negative entry. -/
theorem isNonnegative_afterPasses {p : LinearProgram α m n} {y : Blocks α m n}
    (start : p.startingPoint = .ok y) (config : Config α) (watch : Watch α ε m n)
    (st : State engine m n) (k : Nat)
    : (st.afterPasses p config watch y k).point.IsNonnegative := by
  refine st.afterPasses_induction p config watch y (fun st => st.point.IsNonnegative)
    (p.startingPoint_isNonnegative start) ?_ k
  intro _ _ _ nonneg onward
  obtain ⟨_, passed⟩ := onward.passed
  exact passed.isNonnegative nonneg

/-- What a run that began at a point keeps: no entry is negative, of every entry there is at least
the rest of as many steps as there are records, an interior start stays interior, and the records
say so.
-/
structure KeepsInside (y : Blocks α m n) (st : State engine m n) : Prop where
  nonnegative : st.point.IsNonnegative
  rest_x : (1 - stepFraction : α) ^ st.history.size • y.x.get ≤ st.point.x.get
  rest_s : (1 - stepFraction : α) ^ st.history.size • y.s.get ≤ st.point.s.get
  interior : y.IsInterior → st.point.IsInterior
  record_nonneg : ∀ record ∈ st.history, 0 ≤ record.xLeast ∧ 0 ≤ record.sLeast
  record_pos : y.IsInterior → ∀ record ∈ st.history, 0 < record.xLeast ∧ 0 < record.sLeast

/-- The rest of one step more is the rest of what the steps before left. -/
theorem pow_succ_smul_le {v w u : Fin n → α} {k : Nat}
    (before : (1 - stepFraction : α) ^ k • v ≤ w) (rest : (1 - stepFraction : α) • w ≤ u)
    : (1 - stepFraction : α) ^ (k + 1) • v ≤ u := by
  have rest_nonneg : (0 : α) ≤ 1 - stepFraction := (sub_pos.mpr stepFraction_lt_one).le
  calc (1 - stepFraction : α) ^ (k + 1) • v
      = (1 - stepFraction : α) • (1 - stepFraction : α) ^ k • v := by rw [smul_smul, pow_succ']
    _ ≤ (1 - stepFraction : α) • w := smul_le_smul_of_nonneg_left before rest_nonneg
    _ ≤ u := rest

omit [IsStrictOrderedRing α] in
theorem least_pos (hn : 0 < n) {x : Vector α n} (hx : ∀ i, 0 < x.get i)
    : 0 < least x := by
  obtain ⟨i, attained⟩ := (least_isLeast hn x).1
  exact attained ▸ hx i

omit [IsStrictOrderedRing α] in
theorem least_nonneg (hn : 0 < n) {x : Vector α n} (hx : 0 ≤ x.get)
    : 0 ≤ least x := by
  obtain ⟨i, attained⟩ := (least_isLeast hn x).1
  exact attained ▸ hx i

/-- One pass keeps all of it: it notes a record of the point before, and of that point it leaves
the rest of a step.
-/
theorem KeepsInside.pass (hn : 0 < n) {p : LinearProgram α m n} {config : Config α}
    {iteration : Nat} {y : Blocks α m n} {st next : State engine m n} {outcome : Pass α ε}
    (kept : st.KeepsInside y) (h : PassCase p config iteration st outcome next)
    : next.KeepsInside y := by
  obtain ⟨record, history, noted⟩ := h.history_push
  obtain ⟨rest_x, rest_s⟩ := h.rest_le kept.nonnegative
  have xLeast : record.xLeast = least st.point.x := congrArg Record.xLeast noted
  have sLeast : record.sLeast = least st.point.s := congrArg Record.sLeast noted
  exact {
    nonnegative := h.isNonnegative kept.nonnegative
    rest_x := by
      rw [history, Array.size_push]
      exact pow_succ_smul_le kept.rest_x rest_x
    rest_s := by
      rw [history, Array.size_push]
      exact pow_succ_smul_le kept.rest_s rest_s
    interior := by
      intro hy
      have inside := kept.interior hy
      exact ⟨pos_of_rest_le inside.x rest_x, pos_of_rest_le inside.s rest_s⟩
    record_nonneg := by
      intro other member
      rw [history] at member
      rcases Array.mem_push.mp member with earlier | rfl
      · exact kept.record_nonneg other earlier
      · rw [xLeast, sLeast]
        exact ⟨least_nonneg hn kept.nonnegative.x, least_nonneg hn kept.nonnegative.s⟩
    record_pos := by
      intro hy other member
      rw [history] at member
      rcases Array.mem_push.mp member with earlier | rfl
      · exact kept.record_pos hy other earlier
      · have inside := kept.interior hy
        rw [xLeast, sLeast]
        exact ⟨least_pos hn inside.x, least_pos hn inside.s⟩
  }

/-- A solver that is at its starting point keeps all of it, with an empty history. -/
theorem keepsInside_startedAt {p : LinearProgram α m n} {y : Blocks α m n}
    (start : p.startingPoint = .ok y) (st : State engine m n)
    : (st.startedAt y).KeepsInside y where
  nonnegative := p.startingPoint_isNonnegative start
  rest_x := by simp [startedAt]
  rest_s := by simp [startedAt]
  interior := id
  record_nonneg := by simp [startedAt]
  record_pos := by simp [startedAt]

/-- A solve that begins at a point stays inside: after any number of passes there is of every
entry at least the rest of as many steps, and an interior start stays interior, in the points as
in the records.
-/
structure SolveStaysInside (p : LinearProgram α m n) (config : Config α) (watch : Watch α ε m n)
    (y : Blocks α m n) (st : State engine m n)
    : Prop
    extends st.GoesThrough p config watch y where
  rest_x
    : ∀ k, (1 - stepFraction : α) ^ k • y.x.get
        ≤ (st.afterPasses p config watch y k).point.x.get
  rest_s
    : ∀ k, (1 - stepFraction : α) ^ k • y.s.get
        ≤ (st.afterPasses p config watch y k).point.s.get
  interior
    : y.IsInterior → ∀ k, (st.afterPasses p config watch y k).point.IsInterior
  record_pos
    : y.IsInterior
      → ∀ record ∈ (st.solve p config watch).2.1.history, 0 < record.xLeast ∧ 0 < record.sLeast

/-- Fewer steps leave more. -/
theorem rest_of_size_le {v w : Fin n → α} {size k : Nat} (hv : 0 ≤ v)
    (rest : (1 - stepFraction : α) ^ size • v ≤ w) (le : size ≤ k)
    : (1 - stepFraction : α) ^ k • v ≤ w := by
  have rest_nonneg : (0 : α) ≤ 1 - stepFraction := (sub_pos.mpr stepFraction_lt_one).le
  have rest_le_one : (1 - stepFraction : α) ≤ 1 := sub_le_self 1 stepFraction_pos.le
  exact (smul_le_smul_of_nonneg_right (pow_le_pow_of_le_one rest_nonneg rest_le_one le) hv).trans
    rest

/-- What a solve has kept inside after some number of its passes. -/
theorem keepsInside_afterPasses (hn : 0 < n) {p : LinearProgram α m n} {y : Blocks α m n}
    (start : p.startingPoint = .ok y) (config : Config α) (watch : Watch α ε m n)
    (st : State engine m n) (k : Nat)
    : (st.afterPasses p config watch y k).KeepsInside y := by
  refine st.afterPasses_induction p config watch y (fun st => st.KeepsInside y)
    (keepsInside_startedAt start st) ?_ k
  intro k before after kept onward
  obtain ⟨_, passed⟩ := onward.passed
  exact kept.pass hn passed

/-- No record of a solve shows a negative entry; a solve without a starting point has none. -/
theorem record_nonneg_of_mem_solve (hn : 0 < n) (p : LinearProgram α m n) (config : Config α)
    (watch : Watch α ε m n) (st : State engine m n)
    : ∀ record ∈ (st.solve p config watch).2.1.history,
        0 ≤ record.xLeast ∧ 0 ≤ record.sLeast := by
  cases start : p.startingPoint with
  | error fault => simp [solve_unstarted start]
  | ok y =>
      rw [(st.goesThrough p config watch y start).history_eq]
      exact (keepsInside_afterPasses hn start config watch st _).record_nonneg

/-- Steps stay inside from every point that is not negative, and so do solves from where they
begin, whatever the backend answers.
-/
theorem staysInside (p : LinearProgram α m n) (hn : 0 < n) (config : Config α)
    (watch : Watch α ε m n)
    : (∀ (st next : State engine m n) (mu : α) (taken : Step α) (notices : List Notice),
        st.point.IsNonnegative
        → 0 ≤ mu
        → st.step mu = (.ok taken, next, notices)
        → StaysInside st.point next.point taken)
      ∧ (∀ st : State engine m n, ∀ record ∈ (st.solve p config watch).2.1.history,
          0 ≤ record.xLeast ∧ 0 ≤ record.sLeast)
      ∧ ∀ (st : State engine m n) (y : Blocks α m n),
          p.startingPoint = .ok y → st.SolveStaysInside p config watch y := by
  refine ⟨fun st next mu taken notices hy _ done => step_staysInside hy done,
    record_nonneg_of_mem_solve hn p config watch, ?_⟩
  intro st y start
  have nonneg := p.startingPoint_isNonnegative start
  have kept := keepsInside_afterPasses hn start config watch st
  have size_le := st.size_history_afterPasses_le p config watch y
  have through := st.goesThrough p config watch y start
  exact {
    toGoesThrough := through
    rest_x := fun k => rest_of_size_le nonneg.x (kept k).rest_x (size_le k)
    rest_s := fun k => rest_of_size_le nonneg.s (kept k).rest_s (size_le k)
    interior := fun hy k => (kept k).interior hy
    record_pos := fun hy => through.history_eq ▸ (kept config.iterationLimit).record_pos hy
  }

/-- A step from a point in the interior, and a solve that takes two of them. -/
theorem staysInside_sample
    : (∃ next taken notices,
        samplePrepared.point.IsNonnegative
        ∧ samplePrepared.step 1 = (.ok taken, next, notices)
        ∧ StaysInside samplePrepared.point next.point taken)
      ∧ ∃ y, LinearProgram.sample.startingPoint = .ok y
          ∧ sample.SolveStaysInside .sample .sample .silent y := by
  obtain ⟨step, -, solve⟩ := staysInside .sample (by decide) .sample .silent
  have nonneg : samplePrepared.point.IsNonnegative := by
    constructor <;> rw [Pi.le_def] <;> decide +kernel
  obtain ⟨taken, done⟩ := exists_ok (x := (samplePrepared.step 1).1) (by decide +kernel)
  obtain ⟨y, start⟩ := exists_ok (x := LinearProgram.sample.startingPoint) (by decide +kernel)
  exact ⟨⟨_, taken, _, nonneg, Prod.ext done rfl, step _ _ _ _ _ nonneg one_pos.le
    (Prod.ext done rfl)⟩, y, start, solve sample y start⟩

end State

end InteriorPoint
