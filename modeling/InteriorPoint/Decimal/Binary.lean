import InteriorPoint.Decimal.Rounding

/-! The exact value of a double. A finite double is a signed whole number times a power of
two, which is all that printing and exact arithmetic need of it.
-/

namespace InteriorPoint.Decimal

/-- What the bits of a double stand for. A finite one is `± mantissa * 2 ^ exponent`. -/
inductive Binary where
  | undefined
  | infinite (negative : Bool)
  | finite (negative : Bool) (mantissa : Nat) (exponent : Int)
  deriving Repr, DecidableEq

/-- Reads the three fields of a double; the leading one of a normal mantissa is implicit. -/
def Binary.ofFloat (x : Float) : Binary :=
  let bits := x.toBits.toNat
  let negative := bits / Nat.pow 2 63 % 2 == 1
  let field : Nat := bits / Nat.pow 2 52 % Nat.pow 2 11
  let fraction : Nat := bits % Nat.pow 2 52
  if field = Nat.pow 2 11 - 1 then
    if fraction = 0 then .infinite negative else .undefined
  else if field = 0 then .finite negative fraction (-1074)
  else .finite negative (fraction + Nat.pow 2 52) ((field : Int) - 1075)

/-- The whole number that a finite value is equal to, if it is one. -/
def Binary.toInt? : Binary → Option Int
  | .finite negative mantissa exponent =>
      let den := Nat.pow 2 (-exponent).toNat
      if mantissa % den = 0 then
        let size : Int := (mantissa / den * Nat.pow 2 exponent.toNat : Nat)
        some (if negative then -size else size)
      else none
  | _ => none

/-- The whole number nearest to a finite value, halves going to the even neighbour. -/
def Binary.round? : Binary → Option Int
  | .finite negative mantissa exponent =>
      let size : Int := (roundAt mantissa exponent 0 : Nat)
      some (if negative then -size else size)
  | _ => none

end InteriorPoint.Decimal
