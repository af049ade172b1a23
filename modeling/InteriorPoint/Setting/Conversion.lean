import InteriorPoint.Decimal.Literal
import InteriorPoint.Setting.Value

/-! Conversion of setting values to numbers, and what may be wrong with a value or with a number
that is to be shown.
-/

namespace InteriorPoint.Setting

open InteriorPoint.Decimal

/-- Why a value does not convert to a number, or a whole number not to a text. -/
inductive ConversionFault where
  | wholeFromKind (kind : String)
  | wholeFromText (text : String)
  | wholeTooLong (digits : Nat)
  | wholeFromInfinite
  | wholeFromUndefined
  | textFromLong
  | doubleFromKind (kind : String)
  | doubleFromText (text : String)
  | doubleFromLarge

/-- The words for a failed conversion. A text that is no whole number is shown up to 200
characters of its quoted form.
-/
def ConversionFault.message : ConversionFault → String
  | .wholeFromKind kind =>
      "int() argument must be a string, a bytes-like object or a real number, not '" ++ kind ++ "'"
  | .wholeFromText text =>
      "invalid literal for int() with base 10: "
        ++ String.ofList ((Text.quoted text).toList.take 200)
  | .wholeTooLong digits =>
      "Exceeds the limit (" ++ toString digitLimit
        ++ " digits) for integer string conversion: value has " ++ toString digits
        ++ " digits; use sys.set_int_max_str_digits() to increase the limit"
  | .wholeFromInfinite => "cannot convert float infinity to integer"
  | .wholeFromUndefined => "cannot convert float NaN to integer"
  | .textFromLong =>
      "Exceeds the limit (" ++ toString digitLimit
        ++ " digits) for integer string conversion; use sys.set_int_max_str_digits() to increase"
        ++ " the limit"
  | .doubleFromKind kind =>
      "float() argument must be a string or a real number, not '" ++ kind ++ "'"
  | .doubleFromText text => "could not convert string to float: " ++ Text.quoted text
  | .doubleFromLarge => "int too large to convert to float"

/-- The double nearest to a whole number, unless that would be infinite. -/
def doubleOfInt (n : Int) : Except ConversionFault Float :=
  let x := Float.ofInt n
  if isFinite x then .ok x else .error .doubleFromLarge

/-- A value as a double. Truth values count as one and zero, and texts are read. -/
def Value.toDouble (value : Value) : Except ConversionFault Float :=
  match value with
  | .bool b => .ok (if b then 1 else 0)
  | .int n => doubleOfInt n
  | .float x => .ok x
  | .text s =>
      match double? s with
      | some x => .ok x
      | none => .error (.doubleFromText s)
  | .absent | .list _ | .map _ => .error (.doubleFromKind value.kind)

/-- What a value says about a count: a whole number, or something else that converts to one. -/
inductive Count where
  | exactly (n : Int)
  | other

/-- Reads a value as a whole number. Truth values and texts that hold a number convert, but
are not whole numbers themselves; of the doubles only those without a fraction are.
-/
def Value.toCount (value : Value) : Except ConversionFault Count :=
  match value with
  | .bool _ => .ok .other
  | .int n => .ok (.exactly n)
  | .float x =>
      match Binary.ofFloat x with
      | .undefined => .error .wholeFromUndefined
      | .infinite _ => .error .wholeFromInfinite
      | exact =>
          match exact.toInt? with
          | some n => .ok (.exactly n)
          | none => .ok .other
  | .text s =>
      match Whole.read s with
      | .malformed => .error (.wholeFromText s)
      | .tooLong digits => .error (.wholeTooLong digits)
      | .number _ => .ok .other
  | .absent | .list _ | .map _ => .error (.wholeFromKind value.kind)

end InteriorPoint.Setting
