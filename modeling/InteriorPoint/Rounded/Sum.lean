import InteriorPoint.Rounded.Basic

/-! Sums that are rounded once at the end. The running sum is exact, except that of two parts
which lie more than twice the precision apart only the larger is kept.
-/

namespace InteriorPoint.Rounded

/-- A running sum `mantissa * 2 ^ exponent`. -/
structure RunningSum where
  mantissa : Int
  exponent : Int

namespace RunningSum

def start : RunningSum :=
  ⟨0, 0⟩

/-- Adds a term at the lower of the two exponents, if they are not more than `reach` digits
apart.
-/
def add (reach : Nat) (sum : RunningSum) : Dyadic → RunningSum
  | .zero => sum
  | .ofOdd n k _ =>
      let up := -k - sum.exponent
      if 0 ≤ up then
        if reach < up ∧ (sum.mantissa = 0 ∨ reach < up - bitLength sum.mantissa.natAbs) then
          ⟨n, -k⟩
        else ⟨sum.mantissa + n * Nat.pow 2 up.toNat, sum.exponent⟩
      else if reach < -up - bitLength n.natAbs then
        if sum.mantissa = 0 then ⟨n, -k⟩ else sum
      else ⟨sum.mantissa * Nat.pow 2 (-up).toNat + n, -k⟩

/-- The exact value of a running sum. -/
def value (sum : RunningSum) : Dyadic :=
  .ofIntWithPrec sum.mantissa (-sum.exponent)

end RunningSum

variable {bits : Nat}

/-- The values that are finite. -/
def finitePart (xs : List (Rounded bits)) : List Dyadic :=
  xs.filterMap fun
    | finite x => some x
    | _ => none

/-- The values that are infinite or undefined. -/
def specialPart (xs : List (Rounded bits)) : List (Rounded bits) :=
  xs.filter fun
    | finite _ => false
    | _ => true

/-- The sum of all terms. As soon as one is infinite or undefined, only such terms count. -/
def sum (xs : List (Rounded bits)) : Rounded bits :=
  match specialPart xs with
  | [] => round ((finitePart xs).foldl (RunningSum.add (2 * bits)) .start).value
  | x :: rest => rest.foldl (· + ·) x

end InteriorPoint.Rounded
