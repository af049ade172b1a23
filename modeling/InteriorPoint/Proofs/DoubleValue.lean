import InteriorPoint.Proofs.Comparison
import InteriorPoint.Rounded.Double

/-! The value of a double. Its fields give the same parts as the arithmetic of doubles works with,
and rounding to any precision keeps its sign and whether it is defined.
-/

namespace InteriorPoint

namespace Decimal.Binary

open Float.Model Float.Model.UnpackedFloat

-----------------------------------------------------------------------------------------
-- The fields of a double
-----------------------------------------------------------------------------------------

/-- What the arithmetic of doubles takes a double apart into, as a value. -/
def ofUnpacked : UnpackedFloat → Binary
  | .notANumber => .undefined
  | .infinity sign => .infinite (sign == .negative)
  | .zero sign => .finite (sign == .negative) 0 (-1074)
  | .finite sign mantissa exponent _ => .finite (sign == .negative) mantissa exponent

theorem toNat_unpackExponent (b : BitVec 64)
    : (@unpackExponent Format.binary64 b).toNat
      = b.toNat / Nat.pow 2 52 % Nat.pow 2 11 := by
  simp [unpackExponent, Nat.shiftRight_eq_div_pow]

theorem toNat_unpackMantissa (b : BitVec 64)
    : (@unpackMantissa Format.binary64 b).toNat = b.toNat % Nat.pow 2 52 := by
  simp [unpackMantissa]

theorem sign_unpackSign (b : BitVec 64)
    : (Sign.ofBitVec (@unpackSign Format.binary64 b) == .negative)
      = (b.toNat / Nat.pow 2 63 % 2 == 1) := by
  have bit
      : (@unpackSign Format.binary64 b).toNat = b.toNat / Nat.pow 2 63 % 2 := by
    simp [unpackSign, Nat.shiftRight_eq_div_pow]
  have positive
      : @unpackSign Format.binary64 b = 0#1 ↔ b.toNat / Nat.pow 2 63 % 2 = 0 := by
    rw [← bit, BitVec.toNat_eq]
    rfl
  rw [Sign.ofBitVec]
  split
  · next zero =>
      rw [positive.mp zero]
      rfl
  · next nonzero =>
      have one := (Nat.mod_two_eq_zero_or_one _).resolve_left fun h => nonzero (positive.mpr h)
      rw [one]
      rfl

/-- Reading the fields gives the value of the parts. -/
theorem ofFloat_eq (x : Float)
    : ofFloat x = ofUnpacked x.toModel.unpack := by
  let b := x.toModel.toBits.toBitVec
  have full
      : @unpackExponent Format.binary64 b = -1#_
        ↔ b.toNat / Nat.pow 2 52 % Nat.pow 2 11 = Nat.pow 2 11 - 1 := by
    rw [← toNat_unpackExponent, BitVec.toNat_eq]
    rfl
  have empty
      : @unpackExponent Format.binary64 b = 0#_
        ↔ b.toNat / Nat.pow 2 52 % Nat.pow 2 11 = 0 := by
    rw [← toNat_unpackExponent, BitVec.toNat_eq]
    rfl
  have whole
      : @unpackMantissa Format.binary64 b = 0#_ ↔ b.toNat % Nat.pow 2 52 = 0 := by
    rw [← toNat_unpackMantissa, BitVec.toNat_eq]
    rfl
  have hidden
      : (1#1 ++ @unpackMantissa Format.binary64 b).toNat
        = b.toNat % Nat.pow 2 52 + Nat.pow 2 52 := by
    have small : b.toNat % Nat.pow 2 52 < 2 ^ 52 := Nat.mod_lt _ (by decide)
    rw [BitVec.toNat_append, toNat_unpackMantissa, BitVec.toNat_ofNat,
      ← Nat.shiftLeft_add_eq_or_of_lt small, Nat.add_comm]
    rfl
  have bits : x.toBits.toNat = b.toNat := rfl
  change _ = ofUnpacked (UnpackedFloat.unpack Format.binary64 b)
  rw [ofFloat, bits, ← sign_unpackSign, UnpackedFloat.unpack]
  simp only [full, empty, whole]
  split
  · split <;> rfl
  · split
    · next least =>
        split
        · next zero =>
            rw [zero]
            rfl
        · rw [ofUnpacked, toNat_unpackMantissa, toNat_unpackExponent, least]
          rfl
    · rw [ofUnpacked, hidden, toNat_unpackExponent]
      rfl

-----------------------------------------------------------------------------------------
-- Signs
-----------------------------------------------------------------------------------------

/-- A value that is not below zero; a zero may have either sign. -/
def IsNonnegative : Binary → Prop
  | .undefined => False
  | .infinite negative => negative = false
  | .finite negative mantissa _ => negative = false ∨ mantissa = 0

theorem zero_le_iff (x : Float)
    : 0 ≤ x ↔ (ofFloat x).IsNonnegative := by
  have zero : rank (0 : Float).toModel.unpack = some (toLex (0, toLex (0, 0))) := by
    decide +kernel
  rw [le_iff_rank, zero, ofFloat_eq]
  cases x.toModel.unpack with
  | notANumber => simp [rank, ofUnpacked, IsNonnegative]
  | infinity sign =>
      cases sign <;> simp [rank, ofUnpacked, IsNonnegative, Prod.Lex.toLex_le_toLex]
  | zero sign => simp [rank, ofUnpacked, IsNonnegative]
  | finite sign mantissa exponent positive =>
      cases sign <;>
        simp [rank, ofUnpacked, IsNonnegative, Prod.Lex.toLex_le_toLex, positive.ne']

theorem isUndefined_iff_ofFloat (x : Float)
    : isUndefined x ↔ ofFloat x = .undefined := by
  rw [isUndefined_iff, le_iff_rank, ofFloat_eq]
  cases x.toModel.unpack with
  | notANumber => simp [rank, ofUnpacked]
  | infinity sign => cases sign <;> simp [rank, ofUnpacked]
  | zero sign => simp [rank, ofUnpacked]
  | finite sign mantissa exponent positive => cases sign <;> simp [rank, ofUnpacked]

end Decimal.Binary

-----------------------------------------------------------------------------------------
-- Rounding to another precision
-----------------------------------------------------------------------------------------

theorem Decimal.roundDiv_pos {num den : Nat} (positive : 0 < den) (fits : den ≤ num)
    : 0 < roundDiv num den := by
  have floor : 0 < num / den := Nat.div_pos fits positive
  simp only [roundDiv]
  split
  · exact floor
  · split <;> omega

namespace Rounded

open Decimal

variable {bits : Nat}

theorem zero_le_finite_iff (d : Dyadic)
    : (0 : Rounded bits) ≤ finite d ↔ 0 ≤ d.toRat := by
  refine (atMost_iff (finite 0) (finite d)).trans ?_
  simp [rank, Prod.Lex.toLex_le_toLex]

theorem zero_le_infinite_iff (negative : Bool)
    : (0 : Rounded bits) ≤ infinite negative ↔ negative = false := by
  cases negative with
  | false => exact iff_of_true rfl rfl
  | true => exact iff_of_false Bool.false_ne_true (by decide)

theorem toRat_ofIntWithPrec_nonneg_iff (n k : Int)
    : 0 ≤ (Dyadic.ofIntWithPrec n k).toRat ↔ 0 ≤ n := by
  have power : (0 : ℚ) < 2 ^ (-k) := by positivity
  rw [Dyadic.toRat_ofIntWithPrec_eq_mul_two_pow, mul_nonneg_iff_of_pos_right power]
  exact Int.cast_nonneg_iff

/-- Rounding to at least one digit takes no number to zero, so it keeps the sign. -/
theorem toRat_nearest_nonneg_iff (positive : 0 < bits) (d : Dyadic)
    : 0 ≤ (nearest bits d).toRat ↔ 0 ≤ d.toRat := by
  cases d with
  | zero => rfl
  | ofOdd n k odd =>
      have nonzero : n.natAbs ≠ 0 := by omega
      have reach : bitLength n.natAbs - bits ≤ n.natAbs.log2 := by
        rw [bitLength, if_neg nonzero]
        omega
      have fits : Nat.pow 2 (bitLength n.natAbs - bits) ≤ n.natAbs :=
        (Nat.pow_le_pow_right two_pos reach).trans (Nat.log2_self_le nonzero)
      have size := roundDiv_pos (Nat.two_pow_pos _) fits
      have sign : 0 ≤ (Dyadic.ofOdd n k odd).toRat ↔ 0 ≤ n := by
        rw [Dyadic.ofOdd_eq_ofIntWithPrec, toRat_ofIntWithPrec_nonneg_iff]
      rw [sign]
      refine (toRat_ofIntWithPrec_nonneg_iff _ _).trans ?_
      rw [mul_nonneg_iff_of_pos_right (by exact_mod_cast size)]
      exact Int.sign_nonneg_iff

theorem zero_le_exactly_iff (x : Float)
    : (0 : Rounded bits) ≤ exactly x ↔ 0 ≤ x := by
  rw [Binary.zero_le_iff, exactly]
  cases Binary.ofFloat x with
  | undefined => exact iff_of_false (by simp [LE.le, atMost]) (by simp [Binary.IsNonnegative])
  | infinite negative => exact zero_le_infinite_iff negative
  | finite negative mantissa exponent =>
      rw [zero_le_finite_iff, toRat_ofIntWithPrec_nonneg_iff, Binary.IsNonnegative]
      cases negative with
      | false => simp
      | true => simp

theorem zero_le_ofFloat_iff (positive : 0 < bits) (x : Float)
    : (0 : Rounded bits) ≤ ofFloat x ↔ 0 ≤ x := by
  rw [← @zero_le_exactly_iff bits, ofFloat]
  cases (exactly x : Rounded bits) with
  | undefined => rfl
  | infinite negative => rfl
  | finite d =>
      rw [zero_le_finite_iff]
      exact (zero_le_finite_iff _).trans (toRat_nearest_nonneg_iff positive d)

theorem ofFloat_eq_undefined_iff (x : Float)
    : (ofFloat x : Rounded bits) = undefined ↔ isUndefined x := by
  rw [Binary.isUndefined_iff_ofFloat, ofFloat, exactly]
  cases Binary.ofFloat x <;> simp [round]

end Rounded

end InteriorPoint
