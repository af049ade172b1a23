/-! Rounding of exact quotients: the nearest integer with halves going to the even neighbour,
and the decimal order of a quotient.
-/

namespace InteriorPoint.Decimal

/-- The integer nearest to `num / den`; an exact half goes to the even neighbour. -/
def roundDiv (num den : Nat) : Nat :=
  let floor := num / den
  let rest := num % den
  if 2 * rest < den then floor
  else if den < 2 * rest then floor + 1
  else floor + floor % 2

/-- How many decimal digits a number has; zero has one. -/
def digitCount (n : Nat) : Nat :=
  (Nat.toDigits 10 n).length

/-- `mantissa * 2 ^ binary / 10 ^ decimal` as a numerator and a denominator. -/
def quotient (mantissa : Nat) (binary decimal : Int) : Nat × Nat :=
  (mantissa * Nat.pow 2 binary.toNat * Nat.pow 10 (-decimal).toNat,
    Nat.pow 2 (-binary).toNat * Nat.pow 10 decimal.toNat)

/-- The `k` with `10 ^ k ≤ num / den < 10 ^ (k + 1)`. The digit counts leave two candidates,
and one comparison tells them apart.
-/
def order (num den : Nat) : Int :=
  let candidate : Int := (digitCount num : Int) - (digitCount den : Int)
  if den * Nat.pow 10 candidate.toNat ≤ num * Nat.pow 10 (-candidate).toNat then candidate
  else candidate - 1

/-- `mantissa * 2 ^ binary` rounded to a multiple of `10 ^ decimal`. -/
def roundAt (mantissa : Nat) (binary decimal : Int) : Nat :=
  let (num, den) := quotient mantissa binary decimal
  roundDiv num den

theorem roundDiv_one (n : Nat) : roundDiv n 1 = n := by
  simp [roundDiv, Nat.mod_one]

end InteriorPoint.Decimal
