import InteriorPoint.Decimal.Shortest

/-! Scientific text with a fixed number of places: the exact value of the double is rounded
once, halves going to the even neighbour.
-/

namespace InteriorPoint.Decimal

/-- The leading digits of a positive value, `places + 1` of them, and the order of the first.
Rounding up to a power of ten moves on to the next order.
-/
def leadingDigits (places mantissa : Nat) (binary : Int) : Nat × Int :=
  let (num, den) := quotient mantissa binary 0
  let top := order num den
  let n := roundAt mantissa binary (top - places)
  if n = Nat.pow 10 (places + 1) then (Nat.pow 10 places, top + 1) else (n, top)

/-- One digit, `places` more after a point, and the exponent. -/
def scientificDigits (places n : Nat) (top : Int) : List Char :=
  let digits := padLeft (places + 1) '0' (Nat.toDigits 10 n)
  let fraction := digits.drop 1
  digits.take 1 ++ (if fraction.isEmpty then [] else '.' :: fraction) ++ exponentText 2 top

/-- A double with one digit before the point and `places` after it. -/
def scientific (places : Nat) (x : Float) : String :=
  let signed (negative : Bool) (text : List Char) : String :=
    String.ofList (if negative then '-' :: text else text)
  match Binary.ofFloat x with
  | .undefined => "nan"
  | .infinite negative => signed negative ['i', 'n', 'f']
  | .finite negative 0 _ => signed negative (scientificDigits places 0 0)
  | .finite negative mantissa binary =>
      let (n, top) := leadingDigits places mantissa binary
      signed negative (scientificDigits places n top)

/-- Scientific text set flush right in a column. -/
def scientificColumn (width places : Nat) (x : Float) : String :=
  String.ofList (padLeft width ' ' (scientific places x).toList)

end InteriorPoint.Decimal
