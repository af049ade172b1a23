import InteriorPoint.Decimal.Scientific
import InteriorPoint.Method.Solve

/-! The lines that a solve prints: the iteration table, timings, and a warning about a residual
that was not asked about.
-/

namespace InteriorPoint

/-- Sets a text flush right in a column. -/
def column (width : Nat) (text : String) : String :=
  String.ofList (Decimal.padLeft width ' ' text.toList)

/-- The head of the iteration table. -/
def tableHeader : String :=
  column 3 "it" ++ column 16 "f(x)" ++ column 16 "error"

/-- The line that an event prints, if it prints one. -/
def Event.line? {m n : Nat} (backend duration : String) : Event Float m n → Option String
  | header => some tableHeader
  | row iteration objective gap =>
      some (column 3 (toString iteration) ++ Decimal.scientificColumn 16 8 objective
        ++ Decimal.scientificColumn 16 8 gap)
  | notice report => some (report.line backend duration)
  | observed .. => none

/-- The warning about a residual above the threshold. -/
def warningText (gap worst : Float) : String :=
  "Converged on the duality gap (" ++ Decimal.scientific 3 gap ++ ") with feasibility residual "
    ++ Decimal.scientific 3 worst ++ " > " ++ Decimal.scientific 0 warningThreshold
    ++ "; set feastol to require feasibility."

/-- What a result is called in reports. -/
def convergedStatus : String :=
  "converged"

end InteriorPoint
