import InteriorPoint.Setting.Conversion

/-! The configuration of a solve and its validation. The settings are checked in a fixed
order, so of several bad ones the first is reported.
-/

namespace InteriorPoint

/-- When a solve stops: after so many iterations, or once the relative gap, and with a
feasibility tolerance also both residual norms, are small enough.
-/
structure Config (α : Type) where
  iterationLimit : Nat
  gapTolerance : α
  feasibilityTolerance : Option α

namespace Config

open InteriorPoint.Setting

/-- The tolerances, by the names of their settings. -/
inductive Tolerance where
  | gap
  | feasibility
  deriving DecidableEq

def Tolerance.key : Tolerance → String
  | .gap => "tol"
  | .feasibility => "feastol"

/-- Why settings make no configuration. -/
inductive Fault where
  | notMapping (kind : String)
  | limitNotWhole (value : Value)
  | limitNegative (n : Int)
  | toleranceNotPositive (which : Tolerance) (x : Float)
  | conversion (fault : ConversionFault)

def Fault.message : Fault → String
  | .notMapping kind => "params must be a mapping, got " ++ kind
  | .limitNotWhole value => "nmaxit must be an integer, got " ++ value.render
  | .limitNegative n => "nmaxit must be non-negative, got " ++ toString n
  | .toleranceNotPositive which x =>
      which.key ++ " must be positive and finite, got " ++ Decimal.Layout.plain.render x
  | .conversion fault => "Invalid solver option: " ++ fault.message

/-- Fifty iterations and a relative gap of `10 ^ -8`, with no demand on feasibility. -/
def standard : Config Float where
  iterationLimit := 50
  gapTolerance := 1e-8
  feasibilityTolerance := none

/-- A whole number that is not negative, however large. A negative one is shown, unless it has too
many digits for that.
-/
def readLimit (value : Value) : Except Fault Nat :=
  match value.toCount with
  | .error fault => .error (.conversion fault)
  | .ok .other => .error (.limitNotWhole value)
  | .ok (.exactly n) =>
      if 0 ≤ n then .ok n.toNat
      else if Decimal.digitLimit < Decimal.digitCount n.natAbs then
        .error (.conversion .textFromLong)
      else .error (.limitNegative n)

/-- A positive finite double. -/
def readTolerance (which : Tolerance) (value : Value) : Except Fault Float :=
  match value.toDouble with
  | .error fault => .error (.conversion fault)
  | .ok x => if isFinite x && 0 < x then .ok x else .error (.toleranceNotPositive which x)

/-- The feasibility tolerance may be left open. -/
def readFeasibility : Value → Except Fault (Option Float)
  | .absent => .ok none
  | value => (readTolerance .feasibility value).map some

/-- A configuration from named settings. Settings that are absent keep their standard value
and settings of other names have no influence.
-/
def ofSettings (settings : List (String × Value)) : Except Fault (Config Float) := do
  let iterationLimit ←
    match lookup? "nmaxit" settings with
    | some value => readLimit value
    | none => pure standard.iterationLimit
  let gapTolerance ←
    match lookup? Tolerance.gap.key settings with
    | some value => readTolerance .gap value
    | none => pure standard.gapTolerance
  let feasibilityTolerance ←
    match lookup? Tolerance.feasibility.key settings with
    | some value => readFeasibility value
    | none => pure standard.feasibilityTolerance
  pure { iterationLimit, gapTolerance, feasibilityTolerance }

/-- A configuration from whatever a caller hands over: nothing, or a mapping. -/
def ofValue : Value → Except Fault (Config Float)
  | .absent => .ok standard
  | .map settings => ofSettings settings
  | value => .error (.notMapping value.kind)

/-- The settings that describe a configuration. -/
def toSettings (config : Config Float) : List (String × Value) :=
  [("nmaxit", .int config.iterationLimit), (Tolerance.gap.key, .float config.gapTolerance),
    (Tolerance.feasibility.key,
      match config.feasibilityTolerance with
      | some x => .float x
      | none => .absent)]

end Config

end InteriorPoint
