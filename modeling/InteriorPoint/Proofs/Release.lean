import InteriorPoint.Proofs.Restart

/-! What a solve leaves of its backend. However the passes end, the release comes after them; only a
solve that finds no starting point ends before it could release anything.
-/

namespace InteriorPoint

/-- A backend that is neither initialized nor factorized. -/
def Backend.IsReleased {α σ τ : Type} {engine : Engine α σ} (b : Backend engine τ) : Prop :=
  b.isInitialized = false ∧ b.isFactorized = false

namespace Backend

variable {α σ τ : Type} {engine : Engine α σ}

/-- One that is not initialized has no factors either. -/
theorem isReleased_iff (b : Backend engine τ)
    : b.IsReleased ↔ b.isInitialized = false := by
  refine ⟨And.left, fun unbound => ⟨unbound, ?_⟩⟩
  cases phase : b.phase with
  | released | bound => simp only [isFactorized, phase]
  | factorized => simp [isInitialized, target?, phase] at unbound

/-- A release comes to that from every phase. -/
theorem isReleased_release (b : Backend engine τ)
    : b.release.backend.IsReleased := by
  rw [isReleased_iff, isInitialized, target?_release]
  rfl

end Backend

namespace State

variable {α σ ε : Type} [Zero α] [One α] [Add α] [Sub α] [Mul α] [Div α] [Neg α] [NatCast α]
  [LT α] [LE α] [DecidableLT α] [DecidableLE α] {engine : Engine α σ} {m n : Nat}
  (p : LinearProgram α m n) (config : Config α) (watch : Watch α ε m n)

/-- A pass fails at the Jacobian or at the step, but never for want of a starting point. -/
theorem pass_ne_start {p : LinearProgram α m n} {config : Config α} {watch : Watch α ε m n}
    {k : Nat} {st next : State engine m n} {how : PassEnd α ε} {events : List (Event α m n)}
    (h : st.pass p config watch k = (.ended how, next, events)) (fault : Definite.Fault)
    : how ≠ .failed (.start fault) := by
  rintro rfl
  obtain ⟨_, _, _, _, ⟨_, _, outcome, _⟩ | ⟨_, advanced⟩⟩ := pass_phases h
  · split at outcome <;> cases outcome
  · rcases advanced with ⟨_, _, outcome, _⟩ | ⟨_, _, _, _, _, outcome, _⟩
      | ⟨_, _, _, _, _, _, _, _, outcome, _⟩ | ⟨_, _, _, _, _, _, _, _, _, _, outcome, _⟩
    · cases outcome
    · cases outcome
    · cases outcome
    · split at outcome <;> cases outcome

/-- So a run of passes does not either. -/
theorem passes_ne_start (limit : Nat) (st : State engine m n) (seen : Array (Event α m n))
    (fault : Definite.Fault)
    : (st.passes p config watch limit 0 none seen).1 ≠ .failed (.start fault) := by
  refine passes_induction (fun _ _ => True) (fun how _ => how ≠ .failed (.start fault)) ?_ ?_ limit
    trivial ?_
  · intros
    trivial
  · intro _ _ _ _ _ _ passed
    exact pass_ne_start passed fault
  · intro _ _ _
    simp

/-- Nor does a solve that has a starting point. -/
theorem solve_ne_start [PivotSplit α] {p : LinearProgram α m n} {y : Blocks α m n}
    (start : p.startingPoint = .ok y) (config : Config α) (watch : Watch α ε m n)
    (st : State engine m n) (fault : Definite.Fault)
    : (st.solve p config watch).1 ≠ .failed (.start fault) := by
  rw [solve_eq_conclude start]
  exact mt conclude_eq_failed_iff.mp (passes_ne_start p config watch _ _ _ _)

omit [NatCast α] in
/-- Whichever way its passes end, a solve releases the backend after them. -/
theorem conclude_isReleased (how : PassEnd α ε) (st : State engine m n)
    (seen : Array (Event α m n))
    : (conclude p config how st seen).2.1.backend.IsReleased := by
  cases how <;> exact st.backend.isReleased_release

/-- Exactly one way out of a solve passes the release by. Whatever the solver has been through and
however the solve ends, its backend is released afterwards, unless there is no starting point: then
that is what the solve reports, and the backend stays as it was.
-/
theorem solve_isReleased_iff [PivotSplit α] (st : State engine m n)
    : ((st.solve p config watch).2.1.backend.IsReleased
        ↔ (∀ fault, (st.solve p config watch).1 ≠ .failed (.start fault))
          ∨ st.backend.IsReleased)
      ∧ ∀ fault,
          ((st.solve p config watch).1 = .failed (.start fault)
            ↔ p.startingPoint = .error fault)
          ∧ (p.startingPoint = .error fault →
              (st.solve p config watch).2.1.backend = st.backend) := by
  cases start : p.startingPoint with
  | error found =>
      have ending : (st.solve p config watch).1 = .failed (.start found) := by
        rw [solve_unstarted start]
      have kept : (st.solve p config watch).2.1.backend = st.backend := by
        rw [solve_unstarted start]
      refine ⟨?_, fun fault => ⟨?_, fun _ => kept⟩⟩
      · rw [kept, ending]
        refine ⟨.inr, ?_⟩
        rintro (started | released)
        · exact absurd rfl (started found)
        · exact released
      · rw [ending]
        simp
  | ok y =>
      have released : (st.solve p config watch).2.1.backend.IsReleased := by
        rw [solve_eq_conclude start]
        exact conclude_isReleased ..
      have started := solve_ne_start start config watch st
      refine ⟨⟨fun _ => .inl started, fun _ => released⟩, fun fault => ⟨?_, ?_⟩⟩
      · exact ⟨fun ending => absurd ending (started fault), by rintro ⟨⟩⟩
      · rintro ⟨⟩

end State

section Sample

/-- A program with two equal rows, which has no starting point. -/
def LinearProgram.dependent : LinearProgram ℚ 2 1 where
  matrix := .ofMatrix !![1; 1]
  rightSide := .replicate 2 1
  cost := .replicate 1 1

namespace State

/-- A solver of that program with its Jacobian assembled at the origin. -/
def dependentAssembled : State (Direct.engine .sparse : Engine ℚ Unit) 2 1 :=
  let st := State.initial .dependent (.fresh _ ())
  (st.updateJacobian .dependent).toOption.getD st

/-- The same solver with its backend bound to that Jacobian. -/
def dependentBound : State (Direct.engine .sparse : Engine ℚ Unit) 2 1 :=
  (dependentAssembled.attach false false).2.1

theorem dependent_startingPoint
    : LinearProgram.dependent.startingPoint = .error (.minorNotPositive 2 2) := by
  have found
      : (match LinearProgram.dependent.startingPoint with
          | .error fault => some fault
          | .ok _ => none)
        = some (.minorNotPositive 2 2) := by
    decide +kernel
  split at found
  · next fault refused => rw [refused, Option.some.inj found]
  · cases found

theorem dependentBound_reached : dependentBound.Reached .dependent := by
  let st : State (Direct.engine .sparse : Engine ℚ Unit) 2 1 := .initial .dependent (.fresh _ ())
  have assembled : st.updateJacobian .dependent = .ok dependentAssembled := by
    obtain ⟨next, done⟩ := exists_ok (x := st.updateJacobian .dependent) (by decide +kernel)
    have same : dependentAssembled = next := by
      simp only [dependentAssembled]
      rw [done]
      rfl
    rw [done, same]
  exact .used (.updatedJacobian (.initial _) assembled) _

/-- A solver whose backend is bound to the Jacobian when the solve is entered, and whose solve finds
no starting point: the backend is still bound afterwards.
-/
theorem dependentBound_solve_isInitialized
    : dependentBound.Reached .dependent
      ∧ (dependentBound.solve .dependent .sample (.silent : Watch ℚ Empty 2 1)).1
        = .failed (.start (.minorNotPositive 2 2))
      ∧ (dependentBound.solve .dependent .sample
          (.silent : Watch ℚ Empty 2 1)).2.1.backend.isInitialized = true := by
  refine ⟨dependentBound_reached, ?_, ?_⟩
  · rw [solve_unstarted dependent_startingPoint]
  · rw [solve_unstarted dependent_startingPoint]
    rfl

end State

end Sample

end InteriorPoint
