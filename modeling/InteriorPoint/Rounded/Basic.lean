import InteriorPoint.Decimal.Rounding

/-! Binary numbers of a chosen precision, with exponents of any size. Every operation rounds its
exact result once; a result that fits the precision is kept as it is.
-/

namespace InteriorPoint

/-- A number for results of at most `bits` binary digits. -/
inductive Rounded (bits : Nat) where
  | undefined
  | infinite (negative : Bool)
  | finite (x : Dyadic)
  deriving DecidableEq

namespace Rounded

/-- How many binary digits a number has; zero has none. -/
def bitLength (n : Nat) : Nat :=
  if n = 0 then 0 else n.log2 + 1

/-- The nearest number of at most `bits` binary digits; a half goes to the even neighbour. -/
def nearest (bits : Nat) : Dyadic → Dyadic
  | .zero => .zero
  | .ofOdd n k _ =>
      let excess := bitLength n.natAbs - bits
      .ofIntWithPrec (n.sign * Decimal.roundDiv n.natAbs (Nat.pow 2 excess)) (k - excess)

/-- The `t` with `2 ^ t ≤ num / den < 2 ^ (t + 1)`. The lengths leave two candidates, and one
comparison tells them apart.
-/
def quotientOrder (num den : Nat) : Int :=
  let candidate : Int := (bitLength num : Int) - (bitLength den : Int)
  if den * Nat.pow 2 candidate.toNat ≤ num * Nat.pow 2 (-candidate).toNat then candidate
  else candidate - 1

/-- The number of at most `bits` binary digits nearest to a quotient. -/
def nearestQuotient (bits : Nat) : Dyadic → Dyadic → Dyadic
  | .ofOdd n k _, .ofOdd d l _ =>
      let unit := quotientOrder n.natAbs d.natAbs - bits + 1
      let size :=
        Decimal.roundDiv (n.natAbs * Nat.pow 2 (-unit).toNat) (d.natAbs * Nat.pow 2 unit.toNat)
      .ofIntWithPrec (n.sign * d.sign * size) (k - l - unit)
  | _, _ => .zero

/-- Whether a value is below zero. -/
def isNegative (x : Dyadic) : Bool :=
  x.blt 0

variable {bits : Nat}

/-- Rounds an exact result. -/
def round (x : Dyadic) : Rounded bits :=
  .finite (nearest bits x)

instance : Zero (Rounded bits) := ⟨.finite 0⟩

instance : One (Rounded bits) := ⟨.finite 1⟩

/-- The opposite, which needs no rounding. -/
def neg : Rounded bits → Rounded bits
  | undefined => undefined
  | infinite negative => infinite !negative
  | finite x => finite (-x)

/-- The sum; infinite values of opposite signs have none. -/
def add : Rounded bits → Rounded bits → Rounded bits
  | undefined, _ | _, undefined => undefined
  | infinite a, infinite b => if a = b then infinite a else undefined
  | infinite a, finite _ | finite _, infinite a => infinite a
  | finite x, finite y => round (x + y)

/-- The product; a zero and an infinite value have none. -/
def mul : Rounded bits → Rounded bits → Rounded bits
  | undefined, _ | _, undefined => undefined
  | infinite a, infinite b => infinite (a != b)
  | infinite a, finite x | finite x, infinite a =>
      if x = 0 then undefined else infinite (a != isNegative x)
  | finite x, finite y => round (x * y)

/-- The quotient; infinite values have none among each other, and nothing is divided by zero. -/
def div : Rounded bits → Rounded bits → Rounded bits
  | undefined, _ | _, undefined => undefined
  | infinite _, infinite _ => undefined
  | infinite a, finite x => if x = 0 then undefined else infinite (a != isNegative x)
  | finite _, infinite _ => finite 0
  | finite x, finite y => if y = 0 then undefined else finite (nearestQuotient bits x y)

instance : Neg (Rounded bits) := ⟨neg⟩

instance : Add (Rounded bits) := ⟨add⟩

instance : Sub (Rounded bits) := ⟨fun x y => add x (neg y)⟩

instance : Mul (Rounded bits) := ⟨mul⟩

instance : Div (Rounded bits) := ⟨div⟩

/-- Whether one value is below another; an undefined one compares with nothing. -/
def below : Rounded bits → Rounded bits → Bool
  | undefined, _ | _, undefined => false
  | infinite a, infinite b => a && !b
  | infinite a, finite _ => a
  | finite _, infinite b => !b
  | finite x, finite y => x.blt y

/-- Whether one value is at most another; an undefined one compares with nothing. -/
def atMost : Rounded bits → Rounded bits → Bool
  | undefined, _ | _, undefined => false
  | x, y => !below y x

instance : LT (Rounded bits) := ⟨fun x y => below x y⟩

instance : LE (Rounded bits) := ⟨fun x y => atMost x y⟩

instance : DecidableLT (Rounded bits) := fun x y => inferInstanceAs (Decidable (below x y))

instance : DecidableLE (Rounded bits) := fun x y => inferInstanceAs (Decidable (atMost x y))

end Rounded

end InteriorPoint
