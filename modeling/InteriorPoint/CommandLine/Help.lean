import InteriorPoint.CommandLine.Request

/-! What the program says about its own use. -/

namespace InteriorPoint.CommandLine

/-- What a switch is for. -/
def Switch.purpose : Switch → String
  | help => "show this text"
  | problem => "path of a problem file"
  | demo => "built-in problem: " ++ ", ".intercalate (Demo.all.map Demo.name)
  | rows => "constraints of the random problem"
  | cols => "variables of the random problem"
  | seed => "seed of the random problem"
  | limit => "most iterations"
  | tolerance => "tolerance on the relative duality gap"
  | feasibility => "also require residual norms below this value"
  | solver => "linear solver: " ++ ", ".intercalate Direct.names
  | verbose => "print the iteration table"
  | timing => "print linear solver timings"
  | certify => "verify the solution at so many decimal digits"
  | output => "write the result to this path"
  | plot => "save a convergence figure to this path"

/-- The line on a switch. -/
def Switch.helpLine (s : Switch) : String :=
  "  " ++ ", ".intercalate s.names ++ (if s.takesValue then " VALUE" else "") ++ "  " ++ s.purpose

/-- The lines on all switches. -/
def helpLines : List String :=
  ["usage: linipm (--problem PATH | --demo NAME) [switches]", "",
    "Solve min c'x subject to A x = b, x >= 0 with a predictor-corrector interior-point method.",
    ""] ++ Switch.all.map Switch.helpLine

end InteriorPoint.CommandLine
