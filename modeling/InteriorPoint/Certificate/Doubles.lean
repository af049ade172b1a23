import InteriorPoint.Certificate.Parts
import InteriorPoint.Rounded.Double
import InteriorPoint.Rounded.Sum

/-! Certificates of points that are given in doubles, at any number of decimal digits. -/

namespace InteriorPoint.Certificate

/-- Evaluates the conditions with the precision of so many decimal digits. -/
def ofDoubles {m n : Nat} (digits : Int) (p : LinearProgram Float m n) (y : Blocks Float m n)
    : Certificate (Rounded (Rounded.bitsFor digits)) :=
  evaluate Rounded.sum digits (p.map Rounded.ofFloat) (y.map Rounded.ofFloat)

/-- Evaluates the conditions for parts of any shape with that precision. -/
def ofParts (digits : Int) (a : MatrixSource Float) (b c x lam s : Nested Float)
    : Except Fault (Certificate (Rounded (Rounded.bitsFor digits))) :=
  evaluateParts Rounded.ofFloat Rounded.sum digits a b c x lam s

/-- Why there is no certificate at some number of digits. -/
inductive DigitsFault where
  | parts (fault : Fault)
  | precision (fault : Rounded.PrecisionFault)

def DigitsFault.message : DigitsFault → String
  | parts fault => fault.message
  | precision fault => fault.message

/-- Whether a fault is found among the values, after the shapes of all parts were checked. -/
def Fault.isOfValues : Fault → Bool
  | missingValue | noValues => true
  | _ => false

/-- Certifies parts of any shape. The precision is set between the check of their shapes and the
first look at a value.
-/
def certify (digits : Int) (a : MatrixSource Float) (b c x lam s : Nested Float)
    : Except DigitsFault (Certificate (Rounded (Rounded.bitsFor digits))) :=
  match ofParts digits a b c x lam s, Rounded.precision digits with
  | .ok certificate, .ok _ => .ok certificate
  | .ok _, .error fault => .error (.precision fault)
  | .error fault, .ok _ => .error (.parts fault)
  | .error fault, .error other =>
      .error (if fault.isOfValues then .precision other else .parts fault)

end InteriorPoint.Certificate
