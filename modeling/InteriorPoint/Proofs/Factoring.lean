import InteriorPoint.Method.Solve
import InteriorPoint.Proofs.Step

/-! What the backend of a solver holds when a step begins: factors of the Jacobian at the point.
A solve leaves the factors, so both solves of a step use the same ones.
-/

namespace InteriorPoint

variable {α σ τ : Type} {engine : Engine α σ} {m n : Nat}

namespace Backend

/-- Solving, whether it succeeds or not, leaves all of a backend but the state of its engine. -/
theorem solve_leaves [Zero α] [Sub α] [LE α] [DecidableLE α] {size : Nat}
    (b : Backend engine τ) (transposed : Bool) (rhs : Vector α size)
    : (b.solve transposed rhs).backend
      = { b with state := (b.solve transposed rhs).backend.state } := by
  have with_factors (factors : engine.Factors size)
      : (b.solveWith factors transposed rhs).backend
        = { b with state := (b.solveWith factors transposed rhs).backend.state } := by
    simp only [solveWith]
    split
    · rfl
    · split <;> rfl
  simp only [solve]
  split
  · split
    · exact with_factors _
    · rfl
  · rfl

/-- So it leaves the binding and the factors. -/
theorem phase_solve [Zero α] [Sub α] [LE α] [DecidableLE α] {size : Nat}
    (b : Backend engine τ) (transposed : Bool) (rhs : Vector α size)
    : (b.solve transposed rhs).backend.phase = b.phase := by
  rw [solve_leaves]

theorem target?_solve [Zero α] [Sub α] [LE α] [DecidableLE α] {size : Nat}
    (b : Backend engine τ) (transposed : Bool) (rhs : Vector α size)
    : (b.solve transposed rhs).backend.target? = b.target? := by
  simp only [target?, phase_solve]

/-- A solve that succeeds answers what the engine answers with the factors at hand. -/
theorem solve_ok [Zero α] [Sub α] [LE α] [DecidableLE α] {size : Nat}
    {b : Backend engine τ} {target : τ} {factors : engine.Factors size} {transposed : Bool}
    {rhs x : Vector α size} (phase : b.phase = .factorized target size factors)
    (h : (b.solve transposed rhs).result = .ok x)
    : ∃ after, engine.solve factors transposed rhs b.state = (.ok x, after) := by
  simp only [solve, phase, dif_pos, solveWith] at h
  split at h
  · simp [refuse] at h
  · next answer after found =>
      split at h
      · obtain rfl := Except.ok.inj h
        exact ⟨after, found⟩
      · simp [refuse] at h

/-- A factorization that succeeds holds what the engine made of the target as it is now. -/
theorem factorize_ok {b : Backend engine τ} {read : τ → SquareTriplet α}
    (h : (b.factorize read).result = .ok ())
    : ∃ target factors after,
        b.target? = some target
        ∧ engine.factorize (read target).content b.state = (.ok factors, after)
        ∧ (b.factorize read).backend.phase
          = .factorized target (read target).size factors := by
  cases bound : b.target? with
  | none => simp [factorize, bound, refuse] at h
  | some target =>
      cases made : engine.factorize (read target).content b.state with
      | mk answer after =>
          cases answer with
          | error cause => simp [factorize, bound, made] at h
          | ok factors =>
              exact ⟨target, factors, after, rfl, made, by simp [factorize, bound, made]⟩

/-- Binding to a matrix that is accepted holds no factors yet. -/
theorem attach_ok {b : Backend engine τ} {target : τ} {rows cols : Nat}
    {symmetric verbose timing : Bool}
    (h : (b.attach target rows cols symmetric verbose timing).result = .ok ())
    : (b.attach target rows cols symmetric verbose timing).backend.target? = some target := by
  simp only [attach] at h ⊢
  split at h
  · simp [refuse] at h
  · next accepted => rw [if_neg accepted, target?]

end Backend

namespace State

/-- Factoring changes nothing but the backend. What is factored is read from the state. -/
theorem factorize_ok {st next : State engine m n} {notices : List Notice}
    (h : st.factorize = (.ok (), next, notices))
    : ∃ (target : Target α) (factors : engine.Factors (st.read target).size) (before after : σ),
        next = { st with backend := next.backend }
        ∧ engine.factorize (st.read target).content before = (.ok factors, after)
        ∧ next.backend.phase = .factorized target (st.read target).size factors
        ∧ st.backend.target? = some target := by
  obtain ⟨result, rest⟩ := Prod.mk.inj h
  obtain ⟨rfl, -⟩ := Prod.mk.inj rest
  obtain ⟨target, factors, after, bound, made, phase⟩ := Backend.factorize_ok result
  exact ⟨target, factors, _, after, rfl, made, phase, bound⟩

/-- A pass prepares its backend by binding it, in the first pass, and factoring what it is bound
to; nothing but the backend changes.
-/
theorem prepare_ok {st next : State engine m n} {iteration : Nat} {timing : Bool}
    {notices : List Notice} (h : st.prepare iteration timing = (.ok (), next, notices))
    : ∃ (target : Target α) (factors : engine.Factors (st.read target).size) (before after : σ),
        next = { st with backend := next.backend }
        ∧ engine.factorize (st.read target).content before = (.ok factors, after)
        ∧ next.backend.phase = .factorized target (st.read target).size factors
        ∧ (iteration = 0 ∨ st.backend.target? = some .jacobian → target = .jacobian) := by
  simp only [prepare] at h
  by_cases first : iteration = 0
  · simp only [if_pos first] at h
    split at h
    · simp at h
    · next accepted =>
        obtain ⟨result, rest⟩ := Prod.mk.inj h
        obtain ⟨rfl, -⟩ := Prod.mk.inj rest
        obtain ⟨target, factors, before, after, next_eq, made, phase, bound⟩ :=
          factorize_ok (Prod.ext result rfl)
        have jacobian := (Backend.attach_ok accepted).symm.trans bound
        exact ⟨target, factors, before, after, next_eq, made, phase,
          fun _ => (Option.some.inj jacobian).symm⟩
  · simp only [if_neg first] at h
    obtain ⟨result, rest⟩ := Prod.mk.inj h
    obtain ⟨rfl, -⟩ := Prod.mk.inj rest
    obtain ⟨target, factors, before, after, next_eq, made, phase, bound⟩ :=
      factorize_ok (Prod.ext result rfl)
    refine ⟨target, factors, before, after, next_eq, made, phase, ?_⟩
    rintro (zero | jacobian)
    · exact absurd zero first
    · exact Option.some.inj (bound.symm.trans jacobian)

/-- Whether it succeeds or not, preparing leaves all but the backend. -/
theorem prepare_leaves {st next : State engine m n} {iteration : Nat} {timing : Bool}
    {result : Except BackendError Unit} {notices : List Notice}
    (h : st.prepare iteration timing = (result, next, notices))
    : next = { st with backend := next.backend } := by
  have bound
      : ∃ backend,
          (if iteration = 0 then st.attach false timing else (.ok (), st, [])).2.1
          = { st with backend } := by
    split <;> exact ⟨_, rfl⟩
  obtain ⟨backend, bound⟩ := bound
  simp only [prepare] at h
  split at h
  · obtain ⟨rfl, -⟩ := Prod.mk.inj (Prod.mk.inj h).2
    rw [bound]
  · obtain ⟨rfl, -⟩ := Prod.mk.inj (Prod.mk.inj h).2
    rw [bound]
    rfl

theorem prepare_frame {st next : State engine m n} {iteration : Nat} {timing : Bool}
    {result : Except BackendError Unit} {notices : List Notice}
    (h : st.prepare iteration timing = (result, next, notices))
    : next.point = st.point ∧ next.history = st.history := by
  rw [prepare_leaves h]
  exact ⟨rfl, rfl⟩

/-- The factors at hand are what the engine made of a Jacobian assembled at a point. -/
def HasFactorsAt [One α] (p : LinearProgram α m n) (y : Blocks α m n) (st : State engine m n)
    : Prop :=
  ∃ (t jacobian : Triplet α (n + m + n) (n + m + n)) (target : Target α)
      (factors : engine.Factors (n + m + n)) (before after : σ),
    p.assemble y t = .ok jacobian
    ∧ engine.factorize jacobian before = (.ok factors, after)
    ∧ st.backend.phase = .factorized target (n + m + n) factors

/-- A state that is ready for a step: residual and factors at hand are those of its point. -/
structure IsPrepared [Field α] (p : LinearProgram α m n) (st : State engine m n) : Prop where
  residual_eq : st.residual = p.residual st.point
  factored : st.HasFactorsAt p st.point

/-- Once the backend is prepared, its factors are those of the Jacobian assembled before, if it is
bound to the Jacobian by then; and it stays bound to that.
-/
theorem hasFactorsAt_of_prepare [One α] {p : LinearProgram α m n} {st next : State engine m n}
    {jacobian : Triplet α (n + m + n) (n + m + n)} {iteration : Nat} {timing : Bool}
    {notices : List Notice} (assembled : p.assemble st.point st.jacobian = .ok jacobian)
    (h : { st with jacobian }.prepare iteration timing = (.ok (), next, notices))
    (bound : iteration = 0 ∨ st.backend.target? = some .jacobian)
    : next.HasFactorsAt p st.point ∧ next.backend.target? = some .jacobian := by
  obtain ⟨target, factors, before, after, next_eq, made, phase, jacobian_eq⟩ := prepare_ok h
  obtain rfl := jacobian_eq bound
  constructor
  · exact ⟨st.jacobian, jacobian, .jacobian, factors, before, after, assembled, made, phase⟩
  · rw [Backend.target?, phase]

/-- A state with a residual and a Jacobian of its point is ready for a step once the backend is
prepared, if that is bound to the Jacobian by then; and it stays bound to that.
-/
theorem isPrepared_of_prepare [Field α] {p : LinearProgram α m n} {st next : State engine m n}
    {jacobian : Triplet α (n + m + n) (n + m + n)} {iteration : Nat} {timing : Bool}
    {notices : List Notice} (residual_eq : st.residual = p.residual st.point)
    (assembled : p.assemble st.point st.jacobian = .ok jacobian)
    (h : { st with jacobian }.prepare iteration timing = (.ok (), next, notices))
    (bound : iteration = 0 ∨ st.backend.target? = some .jacobian)
    : next.IsPrepared p ∧ next.backend.target? = some .jacobian := by
  obtain ⟨factored, target⟩ := hasFactorsAt_of_prepare assembled h bound
  have leaves := prepare_leaves h
  refine ⟨⟨?_, ?_⟩, target⟩
  · rw [leaves]
    exact residual_eq
  · rwa [show next.point = st.point by rw [leaves]]

end State

end InteriorPoint
