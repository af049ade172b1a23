import InteriorPoint.Decimal.Binary

/-! The shortest decimal that reads back as the same double, and the layouts it is written
in. For each count of digits the two grid neighbours of the value are tried, so the first
count with a hit is the least one.
-/

namespace InteriorPoint.Decimal

/-- The real numbers that round to one double, as quarters of its last place: the ends belong
to it exactly when the mantissa is even.
-/
structure Span where
  low : Nat
  value : Nat
  high : Nat
  closed : Bool
  exponent : Int

/-- The span of a positive double. Below a power of two the neighbour is only half as far,
unless the double is the least normal one or subnormal.
-/
def Span.of (mantissa : Nat) (exponent : Int) : Span where
  low :=
    if mantissa = Nat.pow 2 52 ∧ -1074 < exponent then 4 * mantissa - 1
    else 4 * mantissa - 2
  value := 4 * mantissa
  high := 4 * mantissa + 2
  closed := mantissa % 2 == 0
  exponent := exponent - 2

/-- Whether `n * 10 ^ decimal` lies in the span. -/
def Span.holds (span : Span) (decimal : Int) (n : Nat) : Bool :=
  let (unit, den) := quotient 1 span.exponent decimal
  if span.closed then span.low * unit ≤ n * den && n * den ≤ span.high * unit
  else span.low * unit < n * den && n * den < span.high * unit

/-- The nearer of the two neighbours of the value among the multiples of `10 ^ decimal` that
lie in the span; of two equally near ones, the even one.
-/
def Span.nearest? (span : Span) (decimal : Int) : Option Nat :=
  let (num, den) := quotient span.value span.exponent decimal
  let below := num / den
  match span.holds decimal below, span.holds decimal (below + 1) with
  | true, true => some (roundDiv num den)
  | true, false => some below
  | false, true => some (below + 1)
  | false, false => none

/-- Tries `count`, `count + 1`, … digits and stops at the first count that reads back. -/
def Span.search (span : Span) (top : Int) (count : Nat) : (tries : Nat) → Nat × Int
  | 0 => (roundAt span.value span.exponent (top - count + 1), top - count + 1)
  | tries + 1 =>
      match span.nearest? (top - count + 1) with
      | some n => (n, top - count + 1)
      | none => span.search top (count + 1) tries

/-- The shortest decimal `digits * 10 ^ exponent` that reads back as the positive double
`mantissa * 2 ^ exponent`. Seventeen digits always do.
-/
def shortest (mantissa : Nat) (exponent : Int) : Nat × Int :=
  let (num, den) := quotient mantissa exponent 0
  (Span.of mantissa exponent).search (order num den) 1 17

/-- The decisions of a default number text. -/
structure Layout where
  /-- Values below `10 ^ leastPositional` take an exponent. -/
  leastPositional : Int
  /-- Values from `10 ^ firstScientific` on take an exponent. -/
  firstScientific : Int
  /-- The least number of digits of an exponent. -/
  exponentWidth : Nat
  undefined : String
  infinite : String

/-- Values from `0.0001` to below `10 ^ 16` are written positionally and always with a point;
exponents have a sign and two digits at least.
-/
def Layout.plain : Layout where
  leastPositional := -4
  firstScientific := 16
  exponentWidth := 2
  undefined := "nan"
  infinite := "inf"

/-- Pads on the left up to a width. -/
def padLeft (width : Nat) (fill : Char) (text : List Char) : List Char :=
  List.replicate (width - text.length) fill ++ text

/-- An exponent mark, a sign and at least `width` digits. -/
def exponentText (width : Nat) (exponent : Int) : List Char :=
  'e' :: (if exponent < 0 then '-' else '+')
    :: padLeft width '0' (Nat.toDigits 10 exponent.natAbs)

/-- The digits of a number without trailing zeros, and how many zeros were taken off. -/
def trimmedDigits (n : Nat) : List Char × Nat :=
  let digits := (Nat.toDigits 10 n).reverse
  ((digits.dropWhile (· == '0')).reverse, (digits.takeWhile (· == '0')).length)

/-- Writes `digits * 10 ^ exponent`, for digits that start and end with a nonzero one. -/
def Layout.positive (layout : Layout) (digits : List Char) (exponent : Int) : List Char :=
  let top : Int := exponent + digits.length - 1
  if layout.leastPositional ≤ top ∧ top < layout.firstScientific then
    if top < 0 then '0' :: '.' :: List.replicate (-top - 1).toNat '0' ++ digits
    else
      let whole := (top + 1).toNat
      let fraction := digits.drop whole
      digits.take whole ++ List.replicate (whole - digits.length) '0'
        ++ '.' :: (if fraction.isEmpty then ['0'] else fraction)
  else
    match digits with
    | [] => []
    | [digit] => digit :: exponentText layout.exponentWidth top
    | digit :: rest => digit :: '.' :: rest ++ exponentText layout.exponentWidth top

/-- The text of a double in a layout. -/
def Layout.render (layout : Layout) (x : Float) : String :=
  let signed (negative : Bool) (text : String) : String :=
    if negative then "-" ++ text else text
  match Binary.ofFloat x with
  | .undefined => layout.undefined
  | .infinite negative => signed negative layout.infinite
  | .finite negative 0 _ => signed negative "0.0"
  | .finite negative mantissa binary =>
      let (n, decimal) := shortest mantissa binary
      let (digits, zeros) := trimmedDigits n
      signed negative (String.ofList (layout.positive digits (decimal + zeros)))

end InteriorPoint.Decimal
