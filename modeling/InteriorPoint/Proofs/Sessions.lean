import InteriorPoint.Backend.Workbench
import InteriorPoint.Proofs.Factoring

/-! Sessions with a backend. Assemblies are made and edited, arrays hold right sides and solutions,
and the backend is called in any order; beside it an abstract machine remembers the matrix that was
factored last instead of its factors.
-/

namespace InteriorPoint

-----------------------------------------------------------------------------------------
-- What can be done in a session
-----------------------------------------------------------------------------------------

/-- A call of a backend. Assemblies and arrays go by number, and one array may be the
right side as well as the place of the solution.
-/
inductive Call where
  | attach (number : Nat) (symmetric verbose timing : Bool)
  | factorize
  | solve (transposed : Bool) (out rhs : Nat)
  | release

/-- A move in a session: an assembly is made or edited, an array is filled, or the backend is
called.
-/
inductive Move (α : Type) where
  | make (name : String) (rows cols capacity : Int) (entries : List (Int × Int × α))
  | edit (number : Nat) (command : Triplet.Command α)
  | fill (number : Nat) (array : Tensor α)
  | call (call : Call)

/-- What is answered to a call: an error, success alone, or a solution. -/
abbrev Answer (α : Type) : Type :=
  Except BackendError (Option (List α))

/-- How many rows and columns an assembly has. -/
def AnyTriplet.shape {α : Type} (t : AnyTriplet α) : Nat × Nat :=
  (t.rows, t.cols)

/-- Assemblies with a backend, and arrays by number. -/
structure Session {α σ : Type} (engine : Engine α σ) where
  bench : Workbench engine
  arrays : Nat → Tensor α

/-- What there is in a session besides the backend: the shapes of the assemblies, their contents
as square matrices, and the arrays.
-/
structure Surroundings (α : Type) where
  shape : Nat → Nat × Nat
  matrix : Nat → SquareTriplet α
  array : Nat → Tensor α

namespace Session

variable {α σ : Type} {engine : Engine α σ}

/-- No assemblies, a backend that was never used, and arrays that may hold anything. -/
def start (engine : Engine α σ) (state : σ) (arrays : Nat → Tensor α) : Session engine where
  bench := .fresh engine state
  arrays := arrays

/-- The same session with the backend as an operation left it. -/
def withBackend (s : Session engine) (backend : Backend engine Nat) : Session engine :=
  { s with bench := { s.bench with backend } }

/-- The shape of an assembly; a number without one stands for an empty matrix. -/
def shape (s : Session engine) (number : Nat) : Nat × Nat :=
  ((s.bench.assemblies[number]?).map AnyTriplet.shape).getD (0, 0)

abbrev surroundings (s : Session engine) : Surroundings α where
  shape := s.shape
  matrix := s.bench.read
  array := s.arrays

variable [Zero α] [Sub α] [LE α] [DecidableLE α]

/-- Calls the backend. A solution is written to its array, which keeps its shape; without one all
arrays stay as they are.
-/
def call (s : Session engine) : Call → Answer α × Session engine
  | .attach number symmetric verbose timing =>
      let outcome := s.bench.backend.attach number (s.shape number).1 (s.shape number).2
          symmetric verbose timing
      (outcome.result.map fun _ => none, s.withBackend outcome.backend)
  | .factorize =>
      let outcome := s.bench.backend.factorize s.bench.read
      (outcome.result.map fun _ => none, s.withBackend outcome.backend)
  | .solve transposed out rhs =>
      let outcome := s.bench.backend.solveInto transposed (s.arrays out) (s.arrays rhs)
      let arrays :=
        match outcome.result with
        | .ok values => Function.update s.arrays out ⟨(s.arrays out).shape, values⟩
        | .error _ => s.arrays
      (outcome.result.map some, { s.withBackend outcome.backend with arrays })
  | .release =>
      let outcome := s.bench.backend.release
      (outcome.result.map fun _ => none, s.withBackend outcome.backend)

/-- Makes one move. An assembly that cannot be made or edited as wanted stays as it was. -/
def move (s : Session engine) : Move α → Session engine
  | .make name rows cols capacity entries =>
      { s with bench := (s.bench.make name rows cols capacity entries).toOption.getD s.bench }
  | .edit number command =>
      { s with bench := (s.bench.edit number command).toOption.getD s.bench }
  | .fill number array => { s with arrays := Function.update s.arrays number array }
  | .call call => (s.call call).2

/-- The session after some moves. -/
def after (s : Session engine) (moves : List (Move α)) : Session engine :=
  moves.foldl move s

/-- Whether a move ends the use of factors that are at hand: a new factorization, a release, and
a binding that is accepted.
-/
def EndsFactors (s : Session engine) : Move α → Prop
  | .call .factorize | .call .release => True
  | .call (.attach number symmetric verbose timing) =>
      (s.call (.attach number symmetric verbose timing)).1 = .ok none
  | _ => False

/-- None of some moves ends the use of the factors. -/
def KeepsFactors : Session engine → List (Move α) → Prop
  | _, [] => True
  | s, move :: rest => ¬s.EndsFactors move ∧ (s.move move).KeepsFactors rest

/-- Among some moves there is a factorization that succeeded, the assembly bound at that time had
some content, and no later move ended the use of the factors.
-/
def FactoredSince (s : Session engine) (moves : List (Move α)) (number : Nat)
    (matrix : SquareTriplet α)
    : Prop :=
  ∃ earlier later,
    moves = earlier ++ .call .factorize :: later
    ∧ (s.after earlier).bench.backend.target? = some number
    ∧ (s.after earlier).bench.read number = matrix
    ∧ ((s.after earlier).call .factorize).1 = .ok none
    ∧ ((s.after earlier).move (.call .factorize)).KeepsFactors later

end Session

-----------------------------------------------------------------------------------------
-- The abstract machine
-----------------------------------------------------------------------------------------

/-- How far the abstract machine has come: it is released, bound to an assembly, or knows the
matrix that the assembly held when it was factored last.
-/
inductive Stage (α : Type) where
  | released
  | bound (number : Nat)
  | factored (number : Nat) (matrix : SquareTriplet α)

section Machine

variable {α : Type} [Zero α] [Sub α] [LE α] [DecidableLE α] (engine : Engine α Unit)

/-- What an engine without a state answers for a matrix: it makes factors from scratch, and the
solution with them has to be finite.
-/
def Engine.answer (matrix : SquareTriplet α) (transposed : Bool) (rhs : Vector α matrix.size)
    : Except BackendFault (Vector α matrix.size) :=
  match (engine.factorize matrix.content ()).1 with
  | .error cause => .error (.factorization cause)
  | .ok factors =>
      match (engine.solve factors transposed rhs ()).1 with
      | .error cause => .error (.solve cause)
      | .ok x => if allFinite x then .ok x else .error .solutionNotFinite

namespace Stage

/-- The assembly that the machine is bound to. -/
def number? : Stage α → Option Nat
  | released => none
  | bound number | factored number _ => some number

/-- What the machine answers for the matrix that it knows, if the lengths fit. -/
def solution (stage : Stage α) (transposed : Bool) (out rhs : Tensor α)
    : Except BackendError (List α) :=
  match stage with
  | factored _ matrix =>
      if out.shape = [matrix.size] ∧ rhs.shape = [matrix.size] then
        match engine.answer matrix transposed (rhs.toVector matrix.size) with
        | .error fault => .error ⟨engine.name, fault⟩
        | .ok x => .ok x.toList
      else .error ⟨engine.name, .lengths matrix.size out.shape rhs.shape⟩
  | _ => .error ⟨engine.name, .solveUnfactorized⟩

/-- What the machine answers to a call, and how far it has come after it. A solve never changes
that.
-/
def call (around : Surroundings α) (stage : Stage α) : Call → Answer α × Stage α
  | .attach number _ _ _ =>
      let shape := around.shape number
      if shape.1 = shape.2 ∧ 0 < shape.1 then (.ok none, .bound number)
      else (.error ⟨engine.name, .notSquare shape.1 shape.2⟩, stage)
  | .factorize =>
      match stage.number? with
      | none => (.error ⟨engine.name, .factorizeUnbound⟩, stage)
      | some number =>
          let matrix := around.matrix number
          match (engine.factorize matrix.content ()).1 with
          | .error cause => (.error ⟨engine.name, .factorization cause⟩, .bound number)
          | .ok _ => (.ok none, .factored number matrix)
  | .solve transposed out rhs =>
      ((stage.solution engine transposed (around.array out) (around.array rhs)).map some, stage)
  | .release => (.ok none, .released)

/-- How far the machine has come after a move. Only calls matter to it. -/
def move (around : Surroundings α) (stage : Stage α) : Move α → Stage α
  | .call call => (stage.call engine around call).2
  | _ => stage

/-- How far the machine has come after some moves in a session. -/
def after {engine : Engine α Unit} : Session engine → Stage α → List (Move α) → Stage α
  | _, stage, [] => stage
  | s, stage, next :: rest => after (s.move next) (stage.move engine s.surroundings next) rest

end Stage

end Machine

end InteriorPoint
