import InteriorPoint.Method.State

/-! The solve: from the starting point, pass after pass, until a pass is accepted, fails, or none
is left. However the passes end, the backend is released after them.
-/

namespace InteriorPoint

/-- Why a solve fails. -/
inductive Failure where
  | start (fault : Definite.Fault)
  | assembly (fault : Triplet.Fault)
  | step (fault : StepFault)

/-- The outcome of a successful solve, or a snapshot of a state. -/
structure Result (α : Type) (m n : Nat) where
  point : Blocks α m n
  objective : α
  dualObjective : α
  iterations : Nat
  gap : α
  primalResidual : α
  dualResidual : α

/-- What happens during a solve, in order: lines of the table, reports of the backend and calls
of the observer.
-/
inductive Event (α : Type) (m n : Nat) where
  | header
  | row (iteration : Nat) (objective gap : α)
  | notice (notice : Notice)
  | observed (record : Record α) (point : Blocks α m n)

/-- What a caller wants to see of a solve. An observer is told the record of every pass, after
the point has moved, and may break the solve off.
-/
structure Watch (α ε : Type) (m n : Nat) where
  verbose : Bool
  timing : Bool
  observer : Option (Record α → Blocks α m n → Except ε Unit)

/-- How the passes of a solve end. -/
inductive PassEnd (α ε : Type) where
  | accepted
  | exhausted (gap : Option α)
  | failed (failure : Failure)
  | interrupted (e : ε)

/-- How a solve ends. -/
inductive Ending (α ε : Type) (m n : Nat) where
  | converged (result : Result α m n)
  | unconverged (iterations : Nat) (gap : Option α)
  | failed (failure : Failure)
  | interrupted (e : ε)

/-- What a single pass leads to: another one, or the end. -/
inductive Pass (α ε : Type) where
  | stepped (gap : α)
  | ended (how : PassEnd α ε)

variable {α σ ε : Type} {engine : Engine α σ} {m n : Nat}

/-- Tells the observer of a record, if there is one. -/
def Watch.observe (watch : Watch α ε m n) (record : Record α) (point : Blocks α m n)
    : Except ε Unit × List (Event α m n) :=
  match watch.observer with
  | none => (.ok (), [])
  | some observer => (observer record point, [.observed record point])

variable [Zero α] [One α] [Add α] [Sub α] [Mul α] [Div α] [Neg α] [NatCast α] [LT α] [LE α]
  [DecidableLT α] [DecidableLE α]

namespace State

/-- A snapshot of the point and of the residual computed last. -/
def result (p : LinearProgram α m n) (st : State engine m n) : Result α m n where
  point := st.point
  objective := p.objective st.point
  dualObjective := p.dualObjective st.point
  iterations := st.iterations
  gap := relativeGap (p.objective st.point) (p.dualObjective st.point)
  primalResidual := st.residual.primalNorm
  dualResidual := st.residual.dualNorm

/-- The record of a pass before its step. -/
def record (p : LinearProgram α m n) (iteration : Nat) (st : State engine m n) : Record α :=
  let measured := p.measures st.point st.residual
  { iteration
    objective := measured.primal
    gap := relativeGap measured.primal measured.dual
    mu := measured.mu
    xLeast := least st.point.x
    sLeast := least st.point.s
    step := none }

/-- Makes the backend ready for a pass: bound in the first one, factored in each. -/
def prepare (iteration : Nat) (timing : Bool) (st : State engine m n)
    : Except BackendError Unit × State engine m n × List Notice :=
  let (bound, st, notices) := if iteration = 0 then st.attach false timing else (.ok (), st, [])
  match bound with
  | .error e => (.error e, st, notices)
  | .ok () =>
      let (factored, st, more) := st.factorize
      (factored, st, notices ++ more)

/-- The part of a pass after the test: Jacobian, factors, step and observer. -/
def advance (p : LinearProgram α m n) (watch : Watch α ε m n) (record : Record α)
    (st : State engine m n)
    : Pass α ε × State engine m n × List (Event α m n) :=
  match st.updateJacobian p with
  | .error fault => (.ended (.failed (.assembly fault)), st, [])
  | .ok st =>
      match st.prepare record.iteration watch.timing with
      | (.error e, st, notices) =>
          (.ended (.failed (.step (.backend e))), st, notices.map .notice)
      | (.ok (), st, notices) =>
          match st.step record.mu with
          | (.error fault, st, more) =>
              (.ended (.failed (.step fault)), st, (notices ++ more).map .notice)
          | (.ok step, st, more) =>
              let record := { record with step := some step }
              let st := { st with history := st.history.pop.push record }
              let (answer, seen) := watch.observe record st.point
              (match answer with
                | .ok () => .stepped record.gap
                | .error e => .ended (.interrupted e),
                st, (notices ++ more).map .notice ++ seen)

/-- One pass: residual, record and test, and a step unless the test is passed. -/
def pass (p : LinearProgram α m n) (config : Config α) (watch : Watch α ε m n)
    (iteration : Nat) (st : State engine m n)
    : Pass α ε × State engine m n × List (Event α m n) :=
  let st := st.updateResidual p
  let record := st.record p iteration
  let st := { st with history := st.history.push record }
  let shown := if watch.verbose then [.row iteration record.objective record.gap] else []
  if config.accepts st.residual record.gap then
    let st := { st with iterations := iteration }
    let (answer, seen) := watch.observe record st.point
    (.ended (match answer with
      | .ok () => .accepted
      | .error e => .interrupted e), st, shown ++ seen)
  else
    let (next, st, events) := st.advance p watch record
    (next, st, shown ++ events)

/-- Passes one after another, at most `remaining` more of them. -/
def passes (p : LinearProgram α m n) (config : Config α) (watch : Watch α ε m n)
    : (remaining iteration : Nat) → (gap : Option α) → State engine m n
      → Array (Event α m n) → PassEnd α ε × State engine m n × Array (Event α m n)
  | 0, _, gap, st, seen => (.exhausted gap, st, seen)
  | remaining + 1, iteration, _, st, seen =>
      match st.pass p config watch iteration with
      | (.ended how, st, events) => (how, st, seen ++ events.toArray)
      | (.stepped gap, st, events) =>
          passes p config watch remaining (iteration + 1) (some gap) st (seen ++ events.toArray)

/-- The passes from a starting point, and the release after them. -/
def iterate (p : LinearProgram α m n) (config : Config α) (watch : Watch α ε m n)
    (st : State engine m n)
    : PassEnd α ε × State engine m n × Array (Event α m n) :=
  let shown : Array (Event α m n) := if watch.verbose then #[.header] else #[]
  let (how, st, events) := st.passes p config watch config.iterationLimit 0 none shown
  let (st, notices) := st.release
  (how, st, events ++ (notices.map Event.notice).toArray)

/-- Solves the program anew. A starting point that cannot be computed ends the solve before the
first pass; nothing is released then.
-/
def solve [PivotSplit α] (p : LinearProgram α m n) (config : Config α) (watch : Watch α ε m n)
    (st : State engine m n)
    : Ending α ε m n × State engine m n × Array (Event α m n) :=
  let st := { st with history := #[], iterations := 0 }
  match st.toStart p with
  | .error fault => (.failed (.start fault), st, #[])
  | .ok st =>
      let (how, st, events) := st.iterate p config watch
      match how with
      | .accepted => (.converged (st.result p), st, events)
      | .exhausted gap =>
          let st := { st with iterations := config.iterationLimit }
          (.unconverged config.iterationLimit gap, st, events)
      | .failed failure => (.failed failure, st, events)
      | .interrupted e => (.interrupted e, st, events)

end State

/-- The residual norm above which a solve that looked at the gap alone is worth a warning. -/
def warningThreshold : α :=
  ((1 : Nat) : α) / ((1000000 : Nat) : α)

/-- The residual to warn of: the greater one, if feasibility was not asked for and it is above
the threshold.
-/
def Config.warning? (config : Config α) (r : Result α m n) : Option α :=
  match config.feasibilityTolerance with
  | some _ => none
  | none =>
      let worst := firstMax r.primalResidual r.dualResidual
      if warningThreshold < worst then some worst else none

end InteriorPoint
