import InteriorPoint.Backend.Engine

/-! The life of a backend: released, bound to a matrix, or holding its factors. A backend refers
to its matrix by a target, and what the target holds is read anew at each factorization.
-/

namespace InteriorPoint

/-- Why a backend refuses or fails. -/
inductive BackendFault where
  | notSquare (rows cols : Nat)
  | factorizeUnbound
  | factorization (cause : FactorFault)
  | solveUnfactorized
  | lengths (size : Nat) (out rhs : List Nat)
  | solve (cause : SolveFault)
  | solutionNotFinite
  deriving DecidableEq, Repr

/-- A fault together with the name of the backend. -/
structure BackendError where
  backend : String
  fault : BackendFault
  deriving DecidableEq, Repr

namespace BackendError

/-- Whether setting up, factoring or solving went wrong. -/
inductive Stage where
  | setup
  | factorization
  | solve
  deriving DecidableEq, Repr

def stage (e : BackendError) : Stage :=
  match e.fault with
  | .notSquare .. | .factorizeUnbound | .solveUnfactorized => .setup
  | .factorization _ => .factorization
  | .lengths .. | .solve _ | .solutionNotFinite => .solve

def message (e : BackendError) : String :=
  match e.fault with
  | .notSquare rows cols =>
      e.backend ++ ": matrix must be square and non-empty, got " ++ toString rows ++ "x"
        ++ toString cols
  | .factorizeUnbound => e.backend ++ ": factorize called before initialize"
  | .factorization .singular => e.backend ++ ": Factor is exactly singular"
  | .factorization .factorNotFinite => e.backend ++ ": factor contains non-finite values"
  | .factorization .matrixNotFinite => e.backend ++ ": matrix contains non-finite values"
  | .factorization (.zeroPivot number) =>
      e.backend ++ ": Diagonal number " ++ toString number
        ++ " is exactly zero. Singular matrix."
  | .factorization .injected => "injected failure"
  | .solveUnfactorized => e.backend ++ ": solve called before factorize"
  | .lengths size out rhs =>
      e.backend ++ ": expected vectors of length " ++ toString size ++ ", got out "
        ++ shapeText out ++ " and rhs " ++ shapeText rhs
  | .solve .injected => "injected failure"
  | .solutionNotFinite => e.backend ++ ": solution contains non-finite values"

end BackendError

/-- What a backend reports as it goes. -/
inductive Notice where
  | initialized (symmetric : Bool) (rows cols : Nat)
  | factorized
  | solved
  | released
  deriving DecidableEq, Repr

/-- The line that reports a notice; a timed one ends in a duration. -/
def Notice.line (backend duration : String) : Notice → String
  | initialized symmetric rows cols =>
      "  [" ++ backend ++ "] initialized " ++ (if symmetric then "symmetric" else "unsymmetric")
        ++ " " ++ toString rows ++ "x" ++ toString cols ++ " system"
  | factorized => "  [" ++ backend ++ "] factorize: " ++ duration ++ " s"
  | solved => "  [" ++ backend ++ "] solve: " ++ duration ++ " s"
  | released => "  [" ++ backend ++ "] released"

variable {α σ τ : Type}

/-- How far a backend has come with its matrix. -/
inductive Phase (engine : Engine α σ) (τ : Type) where
  | released
  | bound (target : τ)
  | factorized (target : τ) (size : Nat) (factors : engine.Factors size)

/-- A backend: the state of its engine, how far it has come, and the flags of the last
initialization.
-/
structure Backend (engine : Engine α σ) (τ : Type) where
  state : σ
  phase : Phase engine τ
  symmetric : Bool
  verbose : Bool
  timing : Bool

/-- The answer of an operation, the backend after it, and what it reported. -/
structure Outcome (engine : Engine α σ) (τ β : Type) where
  result : Except BackendError β
  backend : Backend engine τ
  notices : List Notice

namespace Backend

variable {engine : Engine α σ}

/-- A backend that was never used. -/
def fresh (engine : Engine α σ) (state : σ) : Backend engine τ where
  state := state
  phase := .released
  symmetric := false
  verbose := false
  timing := false

/-- The matrix that the backend is bound to. -/
def target? (b : Backend engine τ) : Option τ :=
  match b.phase with
  | .released => none
  | .bound target | .factorized target .. => some target

def isInitialized (b : Backend engine τ) : Bool :=
  b.target?.isSome

def isFactorized (b : Backend engine τ) : Bool :=
  match b.phase with
  | .factorized .. => true
  | _ => false

/-- An operation that fails without a trace. -/
def refuse {β : Type} (b : Backend engine τ) (fault : BackendFault) : Outcome engine τ β :=
  ⟨.error ⟨engine.name, fault⟩, b, []⟩

/-- Drops the factors and the target. A released backend stays as it is. -/
def release (b : Backend engine τ) : Outcome engine τ Unit :=
  match b.phase with
  | .released => ⟨.ok (), b, []⟩
  | _ =>
      ⟨.ok (), { b with state := engine.release b.state, phase := .released },
        if b.verbose then [.released] else []⟩

/-- Binds the backend to a square matrix that is not empty, and releases the one before. -/
def attach (b : Backend engine τ) (target : τ) (rows cols : Nat)
    (symmetric verbose timing : Bool)
    : Outcome engine τ Unit :=
  if rows ≠ cols ∨ rows = 0 then b.refuse (.notSquare rows cols)
  else
    let released := b.release
    ⟨.ok (), { released.backend with phase := .bound target, symmetric, verbose, timing },
      released.notices ++ if verbose then [.initialized symmetric rows cols] else []⟩

/-- Factors what the target holds now. Factors of before are gone even if this fails. -/
def factorize (b : Backend engine τ) (read : τ → SquareTriplet α) : Outcome engine τ Unit :=
  match b.target? with
  | none => b.refuse .factorizeUnbound
  | some target =>
      let matrix := read target
      match engine.factorize matrix.content b.state with
      | (.error cause, state) =>
          ⟨.error ⟨engine.name, .factorization cause⟩, { b with state, phase := .bound target },
            []⟩
      | (.ok factors, state) =>
          ⟨.ok (), { b with state, phase := .factorized target matrix.size factors },
            if b.timing then [.factorized] else []⟩

variable [Zero α] [Sub α] [LE α] [DecidableLE α]

/-- Solves with factors of the size of the right side, and accepts finite answers alone. -/
def solveWith {size : Nat} (b : Backend engine τ) (factors : engine.Factors size)
    (transposed : Bool) (rhs : Vector α size)
    : Outcome engine τ (Vector α size) :=
  match engine.solve factors transposed rhs b.state with
  | (.error cause, state) => { b with state }.refuse (.solve cause)
  | (.ok x, state) =>
      if allFinite x then
        ⟨.ok x, { b with state }, if b.timing then [.solved] else []⟩
      else { b with state }.refuse .solutionNotFinite

/-- Solves with the factors at hand, if there are any and the length fits. -/
def solve {size : Nat} (b : Backend engine τ) (transposed : Bool) (rhs : Vector α size)
    : Outcome engine τ (Vector α size) :=
  match b.phase with
  | .factorized _ known factors =>
      if h : size = known then b.solveWith (h ▸ factors) transposed rhs
      else b.refuse (.lengths known [size] [size])
  | _ => b.refuse .solveUnfactorized

/-- Solves into an array of any shape and answers with its new values; after a failure there
are none, and the array keeps its old ones. The right side may be the same array.
-/
def solveInto (b : Backend engine τ) (transposed : Bool) (out rhs : Tensor α)
    : Outcome engine τ (List α) :=
  match b.phase with
  | .factorized _ size factors =>
      if out.shape = [size] ∧ rhs.shape = [size] then
        let outcome := b.solveWith factors transposed (rhs.toVector size)
        ⟨outcome.result.map (·.toList), outcome.backend, outcome.notices⟩
      else b.refuse (.lengths size out.shape rhs.shape)
  | _ => b.refuse .solveUnfactorized

end Backend

end InteriorPoint
