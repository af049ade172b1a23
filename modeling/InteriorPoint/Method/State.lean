import InteriorPoint.Backend.Lifecycle
import InteriorPoint.Method.Jacobian
import InteriorPoint.Method.Ratio
import InteriorPoint.Method.Residual
import InteriorPoint.Method.Start

/-! What a solver holds between its phases, and the predictor-corrector step. A phase that
fails answers with the state as far as it came.
-/

namespace InteriorPoint

/-- The matrix that the backend of a solver is bound to: the Jacobian of the solver, or one
from elsewhere.
-/
inductive Target (α : Type) where
  | jacobian
  | other (matrix : SquareTriplet α)

/-- The centering parameter of a step and its two lengths. -/
structure Step (α : Type) where
  sigma : α
  primalLength : α
  dualLength : α

/-- What is known of one iteration; the last one before the end takes no step. -/
structure Record (α : Type) where
  iteration : Nat
  objective : α
  gap : α
  mu : α
  xLeast : α
  sLeast : α
  step : Option (Step α)

variable {α σ : Type}

/-- The buffers of a solver, its backend, and the record of the last solve. -/
structure State (engine : Engine α σ) (m n : Nat) where
  point : Blocks α m n
  direction : Blocks α m n
  residual : Blocks α m n
  jacobian : Triplet α (n + m + n) (n + m + n)
  backend : Backend engine (Target α)
  iterations : Nat
  history : Array (Record α)

namespace State

variable {engine : Engine α σ} {m n : Nat}

/-- All zeros, with an empty Jacobian and room for a full one. -/
def initial [Zero α] (p : LinearProgram α m n) (backend : Backend engine (Target α))
    : State engine m n where
  point := .filled 0
  direction := .filled 0
  residual := .filled 0
  jacobian := p.emptyJacobian
  backend := backend
  iterations := 0
  history := #[]

/-- What a target holds at the moment. -/
def read (st : State engine m n) : Target α → SquareTriplet α
  | .jacobian => ⟨n + m + n, st.jacobian⟩
  | .other matrix => matrix

/-- Binds the backend to the Jacobian. -/
def attach (st : State engine m n) (verbose timing : Bool)
    : Except BackendError Unit × State engine m n × List Notice :=
  let outcome := st.backend.attach .jacobian (n + m + n) (n + m + n) false verbose timing
  (outcome.result, { st with backend := outcome.backend }, outcome.notices)

/-- Factors what the backend is bound to. -/
def factorize (st : State engine m n)
    : Except BackendError Unit × State engine m n × List Notice :=
  let outcome := st.backend.factorize st.read
  (outcome.result, { st with backend := outcome.backend }, outcome.notices)

/-- Releases the backend. -/
def release (st : State engine m n) : State engine m n × List Notice :=
  let outcome := st.backend.release
  ({ st with backend := outcome.backend }, outcome.notices)

/-- Starts over from the starting point of the program. -/
def toStart [Zero α] [One α] [Add α] [Sub α] [Mul α] [Div α] [Neg α] [NatCast α] [LT α] [LE α]
    [DecidableLT α] [DecidableLE α] [PivotSplit α] (p : LinearProgram α m n)
    (st : State engine m n)
    : Except Definite.Fault (State engine m n) :=
  p.startingPoint.map fun point => { st with point }

section Step

variable [Zero α] [One α] [Add α] [Sub α] [Mul α] [Div α] [Neg α] [NatCast α] [LT α] [LE α]
  [DecidableLT α] [DecidableLE α]

/-- Computes the residual at the point. -/
def updateResidual (p : LinearProgram α m n) (st : State engine m n) : State engine m n :=
  { st with residual := p.residual st.point }

/-- Rebuilds the Jacobian at the point. -/
def updateJacobian (p : LinearProgram α m n) (st : State engine m n)
    : Except Triplet.Fault (State engine m n) :=
  (p.assemble st.point st.jacobian).map fun jacobian => { st with jacobian }

/-- The ratio tests of the variables and of the slacks along the direction. -/
def minRatios (st : State engine m n) : Option α × Option α :=
  (minRatio? st.point.x st.direction.x, minRatio? st.point.s st.direction.s)

/-- Solves for the direction with the residual as the right side. -/
def solveDirection (st : State engine m n)
    : Except BackendError Unit × State engine m n × List Notice :=
  let outcome := st.backend.solve false st.residual.flatten
  let st := { st with backend := outcome.backend }
  match outcome.result with
  | .error e => (.error e, st, outcome.notices)
  | .ok d => (.ok (), { st with direction := .ofFlat d }, outcome.notices)

end Step

end State

/-- Why a step is not taken. -/
inductive StepFault where
  | backend (e : BackendError)
  | overflow
  deriving DecidableEq, Repr

section Step

variable [Zero α] [One α] [Add α] [Sub α] [Mul α] [Div α] [Neg α] [NatCast α] [LT α] [LE α]
  [DecidableLT α] [DecidableLE α]

/-- The share of the ratio test that a step takes, which keeps variables and slacks positive. -/
def stepFraction : α :=
  ((99 : Nat) : α) / ((100 : Nat) : α)

/-- The exponent of the centering parameter. -/
def centeringExponent : Nat := 3

/-- The centering parameter for a duality measure and the one that the affine step would leave;
a finite quotient whose power is not finite is refused.
-/
def centering (mu affine : α) : Except StepFault α :=
  if 0 < mu then
    let quotient := affine / mu
    let sigma := power quotient centeringExponent
    if isFinite quotient && !isFinite sigma then .error .overflow else .ok sigma
  else .ok 0

/-- The length of a step that keeps its distance from the boundary. -/
def shortLength : Option α → α
  | none => 1
  | some r => firstMin 1 (stepFraction * r)

namespace State

variable {engine : Engine α σ} {m n : Nat}

/-- The duality measure that a full affine step along the direction would leave. -/
def affineMeasure (st : State engine m n) : α :=
  let (xRatio, sRatio) := st.minRatios
  dot (descend st.point.x (unitLength xRatio) st.direction.x)
      (descend st.point.s (unitLength sRatio) st.direction.s) / ((n : Nat) : α)

/-- Adds the second-order term and the centering target to the residual. -/
def correct (st : State engine m n) (sigma mu : α) : State engine m n :=
  let d := st.direction
  { st with
    residual.s :=
      addVec st.residual.s ((mulEntries d.x d.s).map (· - sigma * mu)) }

/-- Moves the point along the direction: `x` with one length, `lam` and `s` with the other. -/
def move (st : State engine m n) (primalLength dualLength : α) : State engine m n :=
  { st with
    point := {
      x := descend st.point.x primalLength st.direction.x
      lam := descend st.point.lam dualLength st.direction.lam
      s := descend st.point.s dualLength st.direction.s } }

/-- Takes one predictor-corrector step with the factors at hand. -/
def step (st : State engine m n) (mu : α)
    : Except StepFault (Step α) × State engine m n × List Notice :=
  match st.solveDirection with
  | (.error e, st, notices) => (.error (.backend e), st, notices)
  | (.ok (), st, notices) =>
      match centering mu st.affineMeasure with
      | .error fault => (.error fault, st, notices)
      | .ok sigma =>
          match (st.correct sigma mu).solveDirection with
          | (.error e, st, more) => (.error (.backend e), st, notices ++ more)
          | (.ok (), st, more) =>
              let (xRatio, sRatio) := st.minRatios
              let primalLength := shortLength xRatio
              let dualLength := shortLength sRatio
              (.ok { sigma, primalLength, dualLength }, st.move primalLength dualLength,
                notices ++ more)

end State

end Step

end InteriorPoint
