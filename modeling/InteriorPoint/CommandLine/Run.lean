import InteriorPoint.Certificate.Doubles
import InteriorPoint.CommandLine.Request
import InteriorPoint.Report.Kind
import InteriorPoint.Report.Table

/-! What a command line does: it gets a problem, solves it, and reports the solution on the
screen and in files. The files that are there at the start and at the end are part of the
account; only the durations of solves come from outside.
-/

namespace InteriorPoint.CommandLine

/-- How a run ends. It is undetermined where a matrix has rows outside, since products with it then
read and write beyond its vectors.
-/
inductive Exit where
  | finished (code : Nat)
  | helped
  | refused (fault : UsageFault)
  | escaped (kind : Kind) (message : String)
  | undetermined

/-- What a run leaves behind. -/
structure Account where
  output : List String
  errors : List String
  warnings : List String
  exit : Exit
  files : FileTree Contents

/-- The version of the program. -/
def version : String :=
  "0.1.0"

/-- The name that usage faults are reported under. -/
def programName : String :=
  "linipm"

/-- The line that reports a usage fault. -/
def usageLine (fault : UsageFault) : String :=
  programName ++ ": error: " ++ fault.message

namespace Account

/-- Nothing happens any more. -/
def stop (exit : Exit) (files : FileTree Contents) : Account :=
  ⟨[], [], [], exit, files⟩

/-- One error line and the code that goes with it. -/
def failed (line : String) (code : Nat) (files : FileTree Contents) : Account :=
  ⟨[], ["ERROR: " ++ line], [], .finished code, files⟩

/-- Lines that were printed before. -/
def after (lines : List String) (a : Account) : Account :=
  { a with output := lines ++ a.output }

/-- Warnings that were given before. -/
def warned (lines : List String) (a : Account) : Account :=
  { a with warnings := lines ++ a.warnings }

/-- A failure of the library is reported; any other one escapes. -/
def ofFailure (kind : Kind) (message : String) (files : FileTree Contents) : Account :=
  if kind.isOwn then failed (kind.name ++ ": " ++ message) 2 files
  else stop (.escaped kind message) files

end Account

/-- Gets the problem. -/
def Request.problem (r : Request) (files : FileTree Contents)
    : Except (Kind × String) (Problem Float) :=
  match r.source with
  | .file path =>
      (Problem.load (.ofString path) files).mapError fun fault => (fault.kind, fault.message)
  | .demo (.builtIn entry) => .ok entry.problem
  | .demo .random =>
      (Draws.problem r.draft.rows r.draft.cols Draws.standardDensity r.draft.seed).mapError
        fun fault => (fault.kind, fault.message)

/-- The settings of the solver. -/
def Request.settings (r : Request) : Setting.Value :=
  .map [("nmaxit", .int r.draft.limit), ("tol", .float r.draft.tolerance),
    ("feastol", match r.draft.feasibility with
      | some x => .float x
      | none => .absent)]

/-- The line that presents the problem. -/
def problemLine (p : Problem Float) : String :=
  "Problem " ++ p.name ++ ": " ++ toString p.matrix.rows ++ " constraints, "
    ++ toString p.matrix.cols ++ " variables, " ++ toString p.matrix.count ++ " nonzeros"

/-- The lines that present a solution. -/
def solutionLines {m n : Nat} (r : Result Float m n) : List String :=
  ["Converged in " ++ toString r.iterations ++ " iterations: f(x) = "
      ++ Decimal.scientific 10 r.objective ++ ", error = " ++ Decimal.scientific 3 r.gap,
    "Residuals: primal " ++ Decimal.scientific 3 r.primalResidual ++ ", dual "
      ++ Decimal.scientific 3 r.dualResidual]

/-- The line that presents a certificate. -/
def certificateLine {bits : Nat} (c : Certificate (Rounded bits)) : String :=
  "Certificate (" ++ toString c.digits ++ " digits): primal "
    ++ Decimal.scientific 3 c.primalResidual.toFloat ++ ", dual "
    ++ Decimal.scientific 3 c.dualResidual.toFloat ++ ", gap "
    ++ Decimal.scientific 3 c.relativeGap.toFloat

/-- The line that tells of a written file. -/
def savedLine (path : Path) : String :=
  "Saved: " ++ path.text

/-- The fields of the report on a solution. -/
def solutionFields {m n : Nat} (p : Problem Float) (r : Result Float m n)
    : List (String × Document) :=
  let numbers (xs : List Float) : Document := .list (xs.map .number)
  [("problem", .text p.name), ("shape", .list (p.shape.map fun (k : Nat) => .integer k)),
    ("status", .text convergedStatus), ("nit", .integer r.iterations),
    ("fun", .number r.objective), ("dual_fun", .number r.dualObjective),
    ("error", .number r.gap), ("primal_residual", .number r.primalResidual),
    ("dual_residual", .number r.dualResidual), ("x", numbers r.point.x.toList),
    ("lam", numbers r.point.lam.toList), ("s", numbers r.point.s.toList)]

/-- The fields of the report on a certificate. -/
def certificateFields {bits : Nat} (c : Certificate (Rounded bits)) : List (String × Document) :=
  c.measures.map (fun (key, x) => (key, .number x.toFloat)) ++ [("dps", .integer c.digits)]

/-- The last part of a run: the figure, if one is asked for. -/
def Request.plot (r : Request) (name : String) (trace : List TracePoint)
    (files : FileTree Contents)
    : Account :=
  match r.draft.plot with
  | none => .stop (.finished 0) files
  | some text =>
      let path := Path.ofString text
      match Figure.ofTrace trace (some name) with
      | .error fault => .stop (.escaped fault.kind fault.message) files
      | .ok figure =>
          match figure.save path standardResolution files with
          | (.ok (), files) => (Account.stop (.finished 0) files).after [savedLine path]
          | (.error fault, files) => .stop (.escaped fault.kind fault.message) files

/-- Writes the report, if it is asked for, and goes on to the figure. -/
def Request.report (r : Request) (name : String) (document : Document)
    (trace : List TracePoint) (files : FileTree Contents)
    : Account :=
  match r.draft.output with
  | none => r.plot name trace files
  | some text =>
      let path := Path.ofString text
      match files.store path (.document document) with
      | (.ok (), files) => (r.plot name trace files).after [savedLine path]
      | (.error fault, files) => .stop (.escaped fault.kind fault.message) files

/-- Presents a solution, with a certificate if one is asked for. Digits that have no precision are
found after the solution was printed, and nothing is written then.
-/
def Request.present {m n : Nat} (r : Request) (p : Problem Float)
    (program : LinearProgram Float m n) (result : Result Float m n)
    (trace : List TracePoint) (files : FileTree Contents)
    : Account :=
  match r.draft.certify with
  | none =>
      (r.report p.name (.fields (solutionFields p result)) trace files).after
        (solutionLines result)
  | some digits =>
      match Rounded.precision digits with
      | .error fault =>
          (Account.stop (.escaped fault.kind fault.message) files).after (solutionLines result)
      | .ok _ =>
          let c := Certificate.ofDoubles digits program result.point
          let fields := solutionFields p result ++ [("certificate", .fields (certificateFields c))]
          (r.report p.name (.fields fields) trace files).after
            (solutionLines result ++ [certificateLine c])

/-- What a figure shows of the records of a solve. -/
def traceOf (history : Array (Record Float)) : List TracePoint :=
  history.toList.map fun record => ⟨record.iteration, record.gap, record.mu⟩

/-- Solves a problem that was set up, and presents the solution. -/
def Request.solve (r : Request) (duration : String) (p : Problem Float) (posed : Posed)
    (files : FileTree Contents)
    : Account :=
  let program := posed.program.program
  let engine : Engine Float Unit := r.draft.solver.engine
  let watch : Watch Float Empty posed.program.rows posed.program.cols :=
    ⟨r.draft.verbose, r.draft.timing, none⟩
  let (ending, st, events) :=
    (State.initial program (.fresh engine ())).solve program posed.config watch
  let shown := events.toList.filterMap (·.line? engine.name duration)
  match ending with
  | .converged result =>
      ((r.present p program result (traceOf st.history) files).after shown).warned
        ((posed.config.warning? result).toList.map (warningText result.gap))
  | .unconverged _ _ => (Account.ofFailure .convergence unconvergedMessage files).after shown
  | .failed failure => (Account.ofFailure failure.kind failure.message files).after shown
  | .interrupted e => nomatch e

/-- Gets the problem, sets it up and solves it. What happens with rows outside the matrix is left
open, but settings and dimensions are looked at before any row.
-/
def Request.run (r : Request) (duration : String) (files : FileTree Contents) : Account :=
  match r.problem files with
  | .error (kind, message) =>
      if kind = .value ∨ kind = .missingFile then .failed message 1 files
      else .stop (.escaped kind message) files
  | .ok p =>
      (match Posed.ofSparse p.matrix.inside p.rightSide p.cost r.settings with
        | .error fault => Account.ofFailure fault.kind fault.message files
        | .ok posed =>
            if p.matrix.isInside then r.solve duration p posed files
            else .stop .undetermined files).after [problemLine p]

/-- Runs a command line among some files. -/
def run (duration : String) (texts : List String) (files : FileTree Contents) : Account :=
  match Request.read texts with
  | .error .help => .stop .helped files
  | .error (.refused fault) =>
      { Account.stop (.refused fault) files with errors := [usageLine fault] }
  | .ok request => request.run duration files

end InteriorPoint.CommandLine
