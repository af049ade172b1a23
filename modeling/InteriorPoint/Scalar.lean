/-! Scalars as the algorithms use them: four operations and an order, with comparisons that
say what an undefined value does. Every function here is one for an ordered field as well,
where no value is undefined or infinite.
-/

namespace InteriorPoint

instance natCastFloat : NatCast Float := ⟨Float.ofNat⟩

section Order

variable {α : Type} [LT α] [LE α] [DecidableLT α] [DecidableLE α]

/-- Holds of an undefined value alone, since any other value is at most itself. -/
def isUndefined (x : α) : Bool :=
  !decide (x ≤ x)

/-- The earlier value, unless the later one is strictly greater. -/
def firstMax (x y : α) : α :=
  if x < y then y else x

/-- The earlier value, unless the later one is strictly smaller. -/
def firstMin (x y : α) : α :=
  if y < x then y else x

/-- The greater of two values, undefined as soon as one of them is. -/
def greater (x y : α) : α :=
  if isUndefined x then x else if isUndefined y then y else firstMax x y

/-- The lesser of two values, undefined as soon as one of them is. -/
def lesser (x y : α) : α :=
  if isUndefined x then x else if isUndefined y then y else firstMin x y

end Order

section Arithmetic

variable {α : Type} [Zero α] [One α] [Sub α] [Mul α] [Neg α] [LT α] [LE α] [DecidableLT α]
  [DecidableLE α]

/-- A finite value leaves nothing when it is taken from itself; an infinite or undefined one
leaves an undefined value, which is not at most zero.
-/
def isFinite (x : α) : Bool :=
  decide (x - x ≤ 0)

/-- Holds of a zero of either sign, and of no undefined value. -/
def isZero (x : α) : Bool :=
  decide (x ≤ 0) && decide (0 ≤ x)

/-- The absolute value. -/
def magnitude (x : α) : α :=
  if x < 0 then -x else x

/-- `x` multiplied by itself `k` times. -/
def power (x : α) : Nat → α
  | 0 => 1
  | k + 1 => power x k * x

end Arithmetic

/-- How a positive number is split into two factors. Where there are square roots, both of them are
the root.
-/
class PivotSplit (α : Type) where
  lower : α → α
  upper : α → α

instance pivotSplitFloat : PivotSplit Float := ⟨Float.sqrt, Float.sqrt⟩

end InteriorPoint
