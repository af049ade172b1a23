import InteriorPoint.Decimal.Binary
import InteriorPoint.Rounded.Basic
import InteriorPoint.Scalar

/-! Doubles as binary numbers of another precision, and back. -/

namespace InteriorPoint.Rounded

variable {bits : Nat}

/-- A double as it is, whether it fits the precision or not. -/
def exactly (x : Float) : Rounded bits :=
  match Decimal.Binary.ofFloat x with
  | .undefined => undefined
  | .infinite negative => infinite negative
  | .finite negative mantissa exponent =>
      finite (.ofIntWithPrec (if negative then -(mantissa : Int) else mantissa) (-exponent))

/-- A double rounded to the precision. -/
def ofFloat (x : Float) : Rounded bits :=
  match (exactly x : Rounded bits) with
  | finite value => round value
  | special => special

/-- The double nearest to a value. Values that are too small for a full mantissa are rounded a
second time, to the last place that there is.
-/
def toFloat : Rounded bits → Float
  | undefined => 0 / 0
  | infinite negative => if negative then -1 / 0 else 1 / 0
  | finite x =>
      match nearest 53 x with
      | .zero => 0
      | .ofOdd n k _ => (Float.ofInt n).scaleB (-k)

/-- Why a number of decimal digits is too large to have a precision. -/
inductive PrecisionFault where
  | manyDigits
  | manyBits
  deriving DecidableEq, Repr

def PrecisionFault.message : PrecisionFault → String
  | manyDigits => "int too large to convert to float"
  | manyBits => "cannot convert float infinity to integer"

/-- The precision for a number of decimal digits: a digit to spare, and a little more than
three binary digits for each. There is at least one binary digit. It is computed in doubles, so the
number has to fit one, and so has the product.
-/
def precision (digits : Int) : Except PrecisionFault Nat :=
  let count := Float.ofInt (digits + 1)
  if !isFinite count then .error .manyDigits
  else
    match Decimal.Binary.round? (.ofFloat (count * 3.3219280948873626)) with
    | some bits => .ok (max 1 bits.toNat)
    | none => .error .manyBits

/-- That precision, and one binary digit for a number that has none. -/
def bitsFor (digits : Int) : Nat :=
  (precision digits).toOption.getD 1

end InteriorPoint.Rounded
