import InteriorPoint.Certificate.Doubles
import InteriorPoint.File.Contents
import InteriorPoint.Linear.Arrays
import InteriorPoint.Linear.Kernel
import InteriorPoint.Method.Construction
import InteriorPoint.Method.Solve
import InteriorPoint.Problem.Random

/-! The kinds of failure that reports tell apart, and the more general kinds above them. -/

namespace InteriorPoint

/-- Kinds of failure. The first seven are this library's own; the first of them is the most
general and the third covers those of backends.
-/
inductive Kind where
  | own
  | config
  | linearSolver
  | setup
  | factorization
  | solve
  | convergence
  | value
  | index
  | missingFile
  | folder
  | fileExists
  | insideFile
  | system
  | type
  | overflow
  | runtime
  deriving DecidableEq, Repr

namespace Kind

def name : Kind → String
  | own => "LinIpmError"
  | config => "ConfigError"
  | linearSolver => "LinearSolverError"
  | setup => "SetupError"
  | factorization => "FactorizationError"
  | solve => "SolveError"
  | convergence => "ConvergenceError"
  | value => "ValueError"
  | index => "IndexError"
  | missingFile => "FileNotFoundError"
  | folder => "IsADirectoryError"
  | fileExists => "FileExistsError"
  | insideFile => "NotADirectoryError"
  | system => "OSError"
  | type => "TypeError"
  | overflow => "OverflowError"
  | runtime => "RuntimeError"

/-- The library's own kinds that a kind is a case of, other than itself. -/
def above : Kind → List Kind
  | config | linearSolver | convergence => [own]
  | setup | factorization | solve => [own, linearSolver]
  | _ => []

/-- The library's own kinds. -/
def ownKinds : List Kind :=
  [own, config, linearSolver, setup, factorization, solve, convergence]

/-- Whether a failure is the library's own. -/
def isOwn (kind : Kind) : Bool :=
  ownKinds.contains kind

end Kind

def Definite.Fault.kind : Definite.Fault → Kind
  | scalarMatrix => .index
  | shapes .. | rightSideNotFinite => .value
  | matrixNotFinite _ | minorNotPositive .. => .factorization

def Triplet.Fault.kind : Triplet.Fault → Kind
  | .shape .. => .value
  | .tooLarge => .overflow
  | _ => .index

def BackendError.kind (e : BackendError) : Kind :=
  match e.stage with
  | .setup => .setup
  | .factorization => .factorization
  | .solve => .solve

def StorageFault.kind : StorageFault → Kind
  | blockDimensions _ => .type
  | _ => .value

def Triplet.ConversionFault.kind : Triplet.ConversionFault → Kind
  | .tooLarge => .overflow
  | .storage fault => fault.kind

def Kernel.Fault.kind : Kernel.Fault → Kind
  | .storage fault => fault.kind
  | .noLength => .index
  | _ => .value

/-- The kind of a conversion that fails where nobody waits for it to. -/
def Setting.ConversionFault.kind : Setting.ConversionFault → Kind
  | wholeFromKind _ | doubleFromKind _ => .type
  | wholeFromText _ | wholeTooLong _ | wholeFromUndefined | textFromLong | doubleFromText _ =>
      .value
  | wholeFromInfinite | doubleFromLarge => .overflow

/-- The kinds of failed conversions that settings are refused for. -/
def Config.conversionKinds : List Kind :=
  [.type, .value, .overflow]

/-- What settings are refused for is a fault of the configuration. A conversion that failed for
another reason would be let through as it is.
-/
def Config.Fault.kind : Config.Fault → Kind
  | conversion fault =>
      if Config.conversionKinds.contains fault.kind then .config else fault.kind
  | _ => .config

/-- There is no other reason. -/
theorem Config.Fault.kind_eq (fault : Config.Fault)
    : fault.kind = .config := by
  cases fault with
  | conversion fault => cases fault <;> rfl
  | notMapping _ | limitNotWhole _ | limitNegative _ | toleranceNotPositive _ _ => rfl

def SetupFault.kind : SetupFault → Kind
  | vectors _ => .value
  | config fault => fault.kind
  | _ => .config

def Certificate.Fault.kind : Certificate.Fault → Kind
  | missingValue => .index
  | unsized => .type
  | _ => .value

def Rounded.PrecisionFault.kind : Rounded.PrecisionFault → Kind
  | _ => .overflow

def Certificate.DigitsFault.kind : Certificate.DigitsFault → Kind
  | parts fault => fault.kind
  | precision fault => fault.kind

def Draws.Fault.kind : Draws.Fault → Kind
  | _ => .value

def FileFault.kind (fault : FileFault) : Kind :=
  match fault.cause with
  | .missing => .missingFile
  | .taken => .fileExists
  | .insideFile => .insideFile
  | .isFolder => .folder
  | .nameTooLong => .system
  | .nullCharacter => .value

def Archive.Fault.kind : Archive.Fault → Kind
  | .shape .scalar | .shape .nested => .type
  | _ => .value

def LoadFault.kind : LoadFault → Kind
  | notFound _ => .missingFile
  | system fault => fault.kind
  | notArchive => .value
  | archive fault => fault.kind

def FigureFault.kind : FigureFault → Kind
  | _ => .value

def DrawFault.kind : DrawFault → Kind
  | figure fault => fault.kind
  | file fault => fault.kind

namespace Failure

def kind : Failure → Kind
  | start fault => fault.kind
  | assembly fault => fault.kind
  | step (.backend e) => e.kind
  | step .overflow => .overflow

def message : Failure → String
  | start fault => fault.message
  | assembly fault => fault.message
  | step (.backend e) => e.message
  | step .overflow => "(34, 'Numerical result out of range')"

/-- The name of the part that failed, for failures of factorizations and solves. -/
def backend? : Failure → Option String
  | start fault => if fault.kind = .factorization then some "cholesky" else none
  | step (.backend e) => some e.backend
  | _ => none

end Failure

/-- What is said when the passes run out. -/
def unconvergedMessage : String :=
  "iterations did not converge"

end InteriorPoint
