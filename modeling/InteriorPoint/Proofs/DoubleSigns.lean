import InteriorPoint.Proofs.DoubleRounding

/-! The signs of sums and products of doubles. A double has a rational value that gives its place in
the order, and rounding a result does not change the sign of that value unless a product underflows.
-/

namespace InteriorPoint

namespace Decimal.Binary

open Float.Model Float.Model.UnpackedFloat

-----------------------------------------------------------------------------------------
-- Values
-----------------------------------------------------------------------------------------

/-- A number greater than all doubles that are not infinite. -/
def beyond : ℚ :=
  2 ^ (1026 : Int)

theorem beyond_pos : 0 < beyond := by
  rw [beyond]
  positivity

/-- The value of a double. An infinite one lies beyond the others, and an undefined one counts as
zero.
-/
def value : UnpackedFloat → ℚ
  | .notANumber => 0
  | .infinity .positive => beyond
  | .infinity .negative => -beyond
  | .zero _ => 0
  | .finite .positive mantissa exponent _ => mantissa * 2 ^ exponent
  | .finite .negative mantissa exponent _ => -(mantissa * 2 ^ exponent)

/-- What comes out of the bits of a double: parts that fit, where the exponent is not too large. -/
def IsDouble : UnpackedFloat → Prop
  | .finite _ mantissa exponent _ => Fits mantissa exponent ∧ exponent ≤ 972
  | _ => True

theorem isDouble_unpack (x : Float.Model) : IsDouble x.unpack := by
  cases parts : x.unpack with
  | finite => exact (fits_of_unpack parts).imp_right le_of_lt
  | notANumber | infinity | zero => trivial

/-- A finite double lies between zero and the infinite one of its sign. -/
theorem size_bounds {m : Nat} {e : Int} (positive : 0 < m) (parts : Fits m e ∧ e ≤ 972)
    : 0 < (m : ℚ) * 2 ^ e ∧ (m : ℚ) * 2 ^ e < beyond := by
  refine ⟨by positivity, ?_⟩
  have bound : (m : ℚ) < 2 ^ 53 := by exact_mod_cast parts.1.bound
  have exponent : (2 : ℚ) ^ e ≤ 2 ^ (972 : Int) := zpow_le_zpow_right₀ one_le_two parts.2
  calc (m : ℚ) * 2 ^ e
      < 2 ^ 53 * 2 ^ e := by gcongr
    _ ≤ 2 ^ 53 * 2 ^ (972 : Int) := by gcongr
    _ = 2 ^ (1025 : Int) := by
        rw [← zpow_natCast, ← zpow_add₀ two_ne_zero]
        norm_num
    _ < beyond := zpow_lt_zpow_right₀ one_lt_two (by norm_num)

theorem size_lt_of_lt {m m' : Nat} {e e' : Int} (fits : Fits m e) (fits' : Fits m' e')
    (less : e < e' ∨ e = e' ∧ m < m')
    : (m : ℚ) * 2 ^ e < m' * 2 ^ e' := by
  rcases less with higher | ⟨rfl, greater⟩
  · have bound : (m : ℚ) < 2 ^ 53 := by exact_mod_cast fits.bound
    have normal : (2 : ℚ) ^ 52 ≤ m' := by
      have least := fits.least
      exact_mod_cast fits'.normal.resolve_left (by omega)
    calc (m : ℚ) * 2 ^ e
        < 2 ^ 53 * 2 ^ e := by gcongr
      _ = 2 ^ 52 * 2 ^ (e + 1) := by rw [zpow_add₀ two_ne_zero]; ring
      _ ≤ 2 ^ 52 * 2 ^ e' := by gcongr; exacts [one_le_two, higher]
      _ ≤ m' * 2 ^ e' := by gcongr
  · gcongr

/-- The values of doubles are in the order of their ranks. -/
theorem value_lt_of_rank_lt {u v : UnpackedFloat} (hu : IsDouble u) (hv : IsDouble v)
    {a b : ℤ ×ₗ ℤ ×ₗ ℤ} (first : rank u = some a) (second : rank v = some b) (less : a < b)
    : value u < value v := by
  have far := beyond_pos
  rcases u with (_ | _) | _ | _ | ⟨_ | _, m, e, positive⟩ <;>
    rcases v with (_ | _) | _ | _ | ⟨_ | _, m', e', positive'⟩ <;>
    simp only [rank, Option.some.injEq, reduceCtorEq] at first second <;>
    subst first <;> subst second <;>
    simp [Prod.Lex.toLex_lt_toLex, value] at less ⊢
  case finite.negative.finite.negative =>
    exact size_lt_of_lt hv.1 hu.1 (less.imp_right fun same => ⟨same.1.symm, same.2⟩)
  case finite.positive.finite.positive => exact size_lt_of_lt hu.1 hv.1 less
  case finite.negative.finite.positive =>
    linarith [(size_bounds positive hu).1, (size_bounds positive' hv).1]
  case infinity.negative.infinity.positive | infinity.negative.zero | zero.infinity.positive =>
    exact far
  case infinity.negative.finite.negative => exact (size_bounds positive' hv).2
  case infinity.negative.finite.positive => linarith [(size_bounds positive' hv).1]
  case zero.finite.positive => exact (size_bounds positive' hv).1
  case finite.negative.infinity.positive => linarith [(size_bounds positive hu).1]
  case finite.negative.zero => exact (size_bounds positive hu).1
  case finite.positive.infinity.positive => exact (size_bounds positive hu).2

theorem value_eq_of_rank_eq {u v : UnpackedFloat} {a : ℤ ×ₗ ℤ ×ₗ ℤ} (first : rank u = some a)
    (second : rank v = some a)
    : value u = value v := by
  rw [← second] at first
  rcases u with (_ | _) | _ | _ | ⟨_ | _, m, e, positive⟩ <;>
    rcases v with (_ | _) | _ | _ | ⟨_ | _, m', e', positive'⟩ <;>
    simp [rank] at first <;>
    simp [value, first]

theorem rank_eq_none_iff {u : UnpackedFloat} : rank u = none ↔ u = .notANumber := by
  cases u with
  | notANumber => simp [rank]
  | infinity sign => cases sign <;> simp [rank]
  | zero sign => simp [rank]
  | finite sign m e positive => cases sign <;> simp [rank]

section Order

variable {x y : Float}

/-- The value of a double that is not taken apart. -/
def doubleValue (x : Float) : ℚ :=
  value x.toModel.unpack

/-- Doubles that are not undefined are in the order of their values. -/
theorem le_iff_doubleValue (hx : x ≤ x) (hy : y ≤ y) : x ≤ y ↔ doubleValue x ≤ doubleValue y := by
  obtain ⟨a, first, -⟩ := (le_iff_rank x x).mp hx
  obtain ⟨b, second, -⟩ := (le_iff_rank y y).mp hy
  have less := value_lt_of_rank_lt (isDouble_unpack _) (isDouble_unpack _) first second
  have greater := value_lt_of_rank_lt (isDouble_unpack _) (isDouble_unpack _) second first
  rw [le_iff_rank]
  rcases lt_trichotomy a b with below | rfl | above
  · exact iff_of_true ⟨a, first, b, second, below.le⟩ (less below).le
  · exact iff_of_true ⟨a, first, a, second, le_rfl⟩ (value_eq_of_rank_eq first second).le
  · refine iff_of_false ?_ (greater above).not_ge
    rintro ⟨a', first', b', second', below⟩
    obtain rfl := Option.mem_unique first first'
    obtain rfl := Option.mem_unique second second'
    exact above.not_ge below

/-- An undefined double has no place in the order. -/
theorem defined_iff : x ≤ x ↔ x.toModel.unpack ≠ .notANumber := by
  rw [le_iff_rank, ne_eq, ← rank_eq_none_iff, ← ne_eq, Option.ne_none_iff_exists']
  constructor
  · rintro ⟨a, ranked, -⟩
    exact ⟨a, ranked⟩
  · rintro ⟨a, ranked⟩
    exact ⟨a, ranked, a, ranked, le_rfl⟩

theorem doubleValue_of_undefined (undefined : ¬x ≤ x) : doubleValue x = 0 := by
  rw [doubleValue, not_not.mp (mt defined_iff.mpr undefined), value]

theorem zero_defined : (0 : Float) ≤ 0 := by
  decide +kernel

theorem doubleValue_zero : doubleValue 0 = 0 := by
  have zero : rank (0 : Float).toModel.unpack = some (toLex (0, toLex (0, 0))) := by
    decide +kernel
  exact value_eq_of_rank_eq (v := .zero .positive) zero rfl

/-- The sign of a double is that of its value. -/
theorem doubleValue_pos_iff : 0 < doubleValue x ↔ 0 < x := by
  rw [DefinedOrder.lt_iff (α := Float), and_iff_right zero_defined]
  by_cases defined : x ≤ x
  · rw [and_iff_right defined, le_iff_doubleValue defined zero_defined, doubleValue_zero, not_le]
  · rw [doubleValue_of_undefined defined]
    exact iff_of_false (lt_irrefl _) (fun h => defined h.1)

theorem doubleValue_neg_iff : doubleValue x < 0 ↔ x < 0 := by
  rw [DefinedOrder.lt_iff (α := Float)]
  by_cases defined : x ≤ x
  · rw [and_iff_right defined, and_iff_right zero_defined, le_iff_doubleValue zero_defined defined,
      doubleValue_zero, not_le]
  · rw [doubleValue_of_undefined defined]
    exact iff_of_false (lt_irrefl _) (fun h => defined h.1)

theorem doubleValue_nonneg_iff : 0 ≤ doubleValue x ↔ ¬x < 0 := by
  rw [← doubleValue_neg_iff, not_lt]

end Order

-----------------------------------------------------------------------------------------
-- What is packed
-----------------------------------------------------------------------------------------

theorem unpack_pack_notANumber
    : (Float.Model.pack .notANumber).unpack = .notANumber :=
  rank_eq_none_iff.mp (by decide +kernel)

theorem unpack_pack_infinity (sign : Sign)
    : (Float.Model.pack (.infinity sign)).unpack = .infinity sign := by
  refine (unpack_infinity unpackExponent_packComponents
    unpackMantissa_packComponents).trans ?_
  exact congrArg UnpackedFloat.infinity (unpackSign_packComponents ..)

theorem value_finite (sign : Sign) (m : Nat) (e : Int) (positive : 0 < m)
    : value (.finite sign m e positive) = (sign.apply m : ℤ) * 2 ^ e := by
  cases sign with
  | positive => simp [value, Sign.apply]
  | negative => simp [value, Sign.apply]

/-- What operations on doubles pack: an infinite value, or one that is rounded. -/
inductive IsResult : UnpackedFloat → Prop
  | infinity (sign : Sign) : IsResult (.infinity sign)
  | rounded {u : UnpackedFloat} (sign : Sign) (h : IsRounded sign u) : IsResult u

theorem abs_value_infinity (sign : Sign) : |value (.infinity sign)| = beyond := by
  cases sign with
  | negative => rw [value, abs_neg, abs_of_pos beyond_pos]
  | positive => rw [value, abs_of_pos beyond_pos]

theorem abs_value_finite (sign : Sign) {m : Nat} (e : Int) (positive : 0 < m)
    : |value (.finite sign m e positive)| = m * 2 ^ e := by
  have size_pos : (0 : ℚ) < m * 2 ^ e := by positivity
  cases sign with
  | negative => rw [value, abs_neg, abs_of_pos size_pos]
  | positive => rw [value, abs_of_pos size_pos]

/-- The sign of what is not zero. -/
def direction : Sign → SignType
  | .negative => -1
  | .positive => 1

theorem direction_mul (sign sign' : Sign)
    : direction (sign * sign') = direction sign * direction sign' := by
  cases sign <;> cases sign' <;> rfl

theorem sign_value_infinity (sign : Sign)
    : SignType.sign (value (.infinity sign)) = direction sign := by
  cases sign with
  | negative => exact sign_neg (neg_neg_of_pos beyond_pos)
  | positive => exact sign_pos beyond_pos

theorem sign_value_finite (sign : Sign) {m : Nat} (e : Int) (positive : 0 < m)
    : SignType.sign (value (.finite sign m e positive)) = direction sign := by
  have size_pos : (0 : ℚ) < m * 2 ^ e := by positivity
  cases sign with
  | negative => exact sign_neg (neg_neg_of_pos size_pos)
  | positive => exact sign_pos size_pos

/-- Packing keeps the sign of a result. -/
theorem sign_value_pack {u : UnpackedFloat} (h : IsResult u)
    : SignType.sign (value (Float.Model.pack u).unpack) = SignType.sign (value u) := by
  cases h with
  | infinity sign => rw [unpack_pack_infinity]
  | rounded sign h =>
      rcases unpack_pack h with same | ⟨positive, infinite⟩
      · rw [same]
      · cases h with
        | zero => exact absurd positive (lt_irrefl _)
        | finite => rw [infinite, sign_value_infinity, sign_value_finite]

/-- A number is not rounded to zero if it is not smaller than the least double. -/
theorem sign_value_round (sign : Sign) {N : Nat} {k : Int} (positive : 0 < N) (least : -1074 ≤ k)
    : SignType.sign (value (UnpackedFloat.round Format.binary64 sign N k)) = direction sign := by
  obtain ⟨rounded, lower⟩ := isRounded_round sign (k := k) positive
  have reached : (1 : ℚ) * 2 ^ (-1074 : Int) ≤ N * 2 ^ k := by
    gcongr
    · exact_mod_cast positive
    · exact one_le_two
  have nonzero := lower 1 (-1074) (by norm_num) le_rfl (by rwa [Nat.cast_one])
  generalize UnpackedFloat.round Format.binary64 sign N k = u at rounded nonzero
  have grown : 0 < size u := lt_of_lt_of_le (by positivity) nonzero
  cases rounded with
  | zero => exact absurd grown (lt_irrefl _)
  | finite positive => exact sign_value_finite sign _ positive

/-- A whole number at the exponent of a double is rounded to a result of its sign. -/
theorem normalize_spec (M : Int) {k : Int} (least : -1074 ≤ k)
    : IsResult (UnpackedFloat.normalize Format.binary64 M k .positive)
      ∧ SignType.sign (value (UnpackedFloat.normalize Format.binary64 M k .positive))
        = SignType.sign M := by
  rw [UnpackedFloat.normalize]
  split
  · next below =>
      have below : M < 0 := compare_lt_iff_lt.mp below
      have positive : 0 < (-M).toNat := by omega
      refine ⟨.rounded _ (isRounded_round _ positive).1, ?_⟩
      rw [sign_value_round _ positive least, sign_neg below, direction]
  · next same =>
      obtain rfl : M = 0 := compare_eq_iff_eq.mp same
      exact ⟨.rounded _ .zero, rfl⟩
  · next above =>
      have above : 0 < M := compare_gt_iff_gt.mp above
      have positive : 0 < M.toNat := by omega
      refine ⟨.rounded _ (isRounded_round _ positive).1, ?_⟩
      rw [sign_value_round _ positive least, sign_pos above, direction]

-----------------------------------------------------------------------------------------
-- The sign of a sum
-----------------------------------------------------------------------------------------

/-- Only infinite doubles are as great as the infinite ones. -/
theorem abs_value_lt {u : UnpackedFloat} (h : IsDouble u) (finite : ∀ sign, u ≠ .infinity sign)
    : |value u| < beyond := by
  cases u with
  | notANumber | zero => simpa [value] using beyond_pos
  | infinity sign => exact absurd rfl (finite sign)
  | finite sign m e positive =>
      rw [abs_value_finite]
      exact (size_bounds positive h).2

/-- Adding a smaller number to an infinite one does not change the sign. -/
theorem sign_value_infinity_add (sign : Sign) {a : ℚ} (small : |a| < beyond)
    : SignType.sign (value (.infinity sign)) = SignType.sign (value (.infinity sign) + a) := by
  obtain ⟨above, below⟩ := abs_lt.mp small
  rw [sign_value_infinity]
  cases sign with
  | negative => exact (sign_neg (by rw [value]; linarith)).symm
  | positive => exact (sign_pos (by rw [value]; linarith)).symm

theorem isResult_of_isDouble {u : UnpackedFloat} (h : IsDouble u) (defined : u ≠ .notANumber)
    : IsResult u := by
  cases u with
  | notANumber => exact absurd rfl defined
  | infinity sign => exact .infinity sign
  | zero sign => exact .rounded sign .zero
  | finite sign m e positive => exact .rounded sign (.finite positive h.1)

/-- What is not undefined among the results of an operation has the sign of some number. -/
def HasSign (u : UnpackedFloat) (a : ℚ) : Prop :=
  u ≠ .notANumber → IsResult u ∧ SignType.sign (value u) = SignType.sign a

theorem hasSign_notANumber (a : ℚ) : HasSign .notANumber a :=
  fun defined => absurd rfl defined

theorem hasSign_self {u : UnpackedFloat} (h : IsDouble u) : HasSign u (value u) :=
  fun defined => ⟨isResult_of_isDouble h defined, rfl⟩

/-- Mantissas at a common exponent, in place of their own ones. -/
theorem value_decreaseExponent {sign : Sign} {m : Nat} {e k : Int} {positive : 0 < m} (le : k ≤ e)
    : value (.finite sign m e positive)
      = (sign.apply (decreaseExponent m e k).1 : ℤ) * 2 ^ k := by
  rw [value_finite, zpow_eq_mul le, decreaseExponent, Nat.shiftLeft_eq]
  cases sign with
  | positive =>
      simp only [Sign.apply]
      push_cast
      ring
  | negative =>
      simp only [Sign.apply]
      push_cast
      ring

/-- A sum of doubles has the sign of the sum of their values; only infinite ones of unlike signs
have no sum.
-/
theorem hasSign_add {u v : UnpackedFloat} (hu : IsDouble u) (hv : IsDouble v)
    : HasSign (UnpackedFloat.add Format.binary64 u v) (value u + value v) := by
  fun_cases UnpackedFloat.add Format.binary64 u v
  case case1 | case2 | case4 => exact hasSign_notANumber _
  case case3 sign sign' same =>
      obtain rfl : sign = sign' := by cases sign <;> cases sign' <;> first | rfl | cases same
      refine fun _ => ⟨.infinity sign, ?_⟩
      rw [← two_mul, sign_mul, sign_pos two_pos, one_mul]
  case case5 sign _ finite =>
      exact fun _ => ⟨.infinity sign, sign_value_infinity_add sign (abs_value_lt hv finite)⟩
  case case6 sign _ finite =>
      rw [add_comm]
      exact fun _ => ⟨.infinity sign, sign_value_infinity_add sign (abs_value_lt hu finite)⟩
  case case7 sign sign' _ =>
      exact fun _ => ⟨.rounded sign .zero, by simp [value]⟩
  case case8 => exact fun _ => ⟨.rounded .positive .zero, by simp [value]⟩
  case case9 =>
      rw [value, zero_add]
      exact hasSign_self hv
  case case10 =>
      rw [value.eq_def (.zero _), add_zero]
      exact hasSign_self hu
  case case11 sign m e _ sign' m' e' _ k N _ first N' _ second M =>
      intro _
      have least : -1074 ≤ k := le_min hu.1.least hv.1.least
      obtain ⟨result, same⟩ := normalize_spec M least
      refine ⟨result, same.trans ?_⟩
      have common : (0 : ℚ) < 2 ^ k := by positivity
      have mantissa : (decreaseExponent m e k).1 = N := by rw [first]
      have mantissa' : (decreaseExponent m' e' k).1 = N' := by rw [second]
      rw [value_decreaseExponent (min_le_left e e' : k ≤ e),
        value_decreaseExponent (min_le_right e e' : k ≤ e'), mantissa, mantissa', ← add_mul,
        sign_mul, sign_pos common, mul_one, ← Int.cast_add]
      exact (sign_intCast M).symm

-----------------------------------------------------------------------------------------
-- The sign of a product
-----------------------------------------------------------------------------------------

/-- Rounding gives zero or keeps the sign. -/
theorem IsRounded.sign_value {sign : Sign} {u : UnpackedFloat} (h : IsRounded sign u)
    : SignType.sign (value u) = 0 ∨ SignType.sign (value u) = direction sign := by
  cases h with
  | zero => exact .inl sign_zero
  | finite positive => exact .inr (sign_value_finite sign _ positive)

/-- The exponent at which a product is rounded is not below that of the product. -/
theorem exponent_mul_le {m m' : Nat} {e e' : Int} (fits : Fits m e) (fits' : Fits m' e')
    (positive : 0 < m) (positive' : 0 < m')
    : e + e' ≤ max ((m * m').log2 + (e + e') - 52) (-1074) := by
  by_cases small : e = -1074 ∧ e' = -1074
  · omega
  · have normal : 2 ^ 52 ≤ m * m' := by
      rcases fits.normal with rfl | large
      · rcases fits'.normal with rfl | large
        · exact absurd ⟨rfl, rfl⟩ small
        · exact large.trans (Nat.le_mul_of_pos_left _ positive)
      · exact large.trans (Nat.le_mul_of_pos_right _ positive')
    have log : 52 ≤ (m * m').log2 := (Nat.le_log2 (by positivity)).mpr normal
    omega

/-- A product of doubles that is not undefined is zero or has the sign of the product of their
values.
-/
theorem mul_spec {u v : UnpackedFloat} (hu : IsDouble u) (hv : IsDouble v)
    (defined : UnpackedFloat.mul Format.binary64 u v ≠ .notANumber)
    : IsResult (UnpackedFloat.mul Format.binary64 u v)
      ∧ (SignType.sign (value (UnpackedFloat.mul Format.binary64 u v)) = 0
        ∨ SignType.sign (value (UnpackedFloat.mul Format.binary64 u v))
          = SignType.sign (value u * value v)) := by
  revert defined
  fun_cases UnpackedFloat.mul Format.binary64 u v
  case case1 | case2 | case6 | case7 => exact fun defined => absurd rfl defined
  case case3 | case4 | case5 =>
      refine fun _ => ⟨.infinity _, .inr ?_⟩
      simp only [sign_mul, sign_value_infinity, sign_value_finite, direction_mul]
  case case8 | case9 | case10 => exact fun _ => ⟨.rounded _ .zero, .inl sign_zero⟩
  case case11 sign m e positive sign' m' e' positive' =>
      intro _
      have rounded :=
        (isRounded_roundWithAccuracy (sign * sign') (Nat.mul_pos positive positive')
          (exponent_mul_le hu.1 hv.1 positive positive')).1
      refine ⟨.rounded _ rounded, rounded.sign_value.imp_right fun same => same.trans ?_⟩
      rw [sign_mul, sign_value_finite, sign_value_finite, direction_mul]

-----------------------------------------------------------------------------------------
-- The size of a product
-----------------------------------------------------------------------------------------

theorem abs_value_le_beyond {u : UnpackedFloat} (h : IsDouble u) : |value u| ≤ beyond := by
  by_cases infinite : ∃ sign, u = .infinity sign
  · obtain ⟨sign, rfl⟩ := infinite
    exact (abs_value_infinity sign).le
  · exact (abs_value_lt h (not_exists.mp infinite)).le

theorem IsRounded.abs_value {sign : Sign} {u : UnpackedFloat} (h : IsRounded sign u)
    : |value u| = size u := by
  cases h with
  | zero => exact abs_zero
  | finite positive => exact abs_value_finite sign _ positive

/-- A factor of at least one does not make a double smaller, unless the product is undefined. -/
theorem abs_value_le_mul {u v : UnpackedFloat} (hu : IsDouble u) (hv : IsDouble v)
    (great : 1 ≤ |value u|) (defined : UnpackedFloat.mul Format.binary64 u v ≠ .notANumber)
    : |value v| ≤ |value (Float.Model.pack (UnpackedFloat.mul Format.binary64 u v)).unpack| := by
  revert defined
  fun_cases UnpackedFloat.mul Format.binary64 u v
  case case1 | case2 | case6 | case7 => exact fun defined => absurd rfl defined
  case case3 | case4 | case5 =>
      rw [unpack_pack_infinity, abs_value_infinity (_ * _)]
      exact fun _ => abs_value_le_beyond hv
  case case8 | case10 =>
      rw [value.eq_def (.zero _), abs_zero]
      exact fun _ => abs_nonneg _
  case case9 =>
      rw [value, abs_zero] at great
      exact absurd great (by norm_num)
  case case11 sign m e positive sign' m' e' positive' =>
      intro _
      obtain ⟨rounded, lower⟩ :=
        isRounded_roundWithAccuracy (sign * sign') (Nat.mul_pos positive positive')
          (exponent_mul_le hu.1 hv.1 positive positive')
      rw [abs_value_finite] at great ⊢
      have grown : (m' : ℚ) * 2 ^ e' ≤ (m * m' : Nat) * 2 ^ (e + e') :=
        calc (m' : ℚ) * 2 ^ e'
            ≤ m * 2 ^ e * (m' * 2 ^ e') := le_mul_of_one_le_left (by positivity) great
          _ = (m * m' : Nat) * 2 ^ (e + e') := by
              rw [zpow_add₀ two_ne_zero]
              push_cast
              ring
      rcases unpack_pack rounded with same | ⟨-, infinite⟩
      · rw [same, rounded.abs_value]
        exact lower m' e' hv.1.bound hv.1.least grown
      · rw [infinite, abs_value_infinity]
        exact (size_bounds positive' hv).2.le

-----------------------------------------------------------------------------------------
-- Operations on doubles
-----------------------------------------------------------------------------------------

section Operations

variable {x y : Float}

theorem unpack_add (x y : Float)
    : (x + y).toModel.unpack
      = (Float.Model.pack (.add .binary64 x.toModel.unpack y.toModel.unpack)).unpack :=
  rfl

theorem unpack_mul (x y : Float)
    : (x * y).toModel.unpack
      = (Float.Model.pack (.mul .binary64 x.toModel.unpack y.toModel.unpack)).unpack :=
  rfl

/-- What is packed for a defined double is defined. -/
theorem ne_notANumber_of_defined {u : UnpackedFloat}
    (same : x.toModel.unpack = (Float.Model.pack u).unpack) (defined : x ≤ x)
    : u ≠ .notANumber := by
  rintro rfl
  exact defined_iff.mp defined (same.trans unpack_pack_notANumber)

/-- An operation that hands on undefined arguments is defined only for defined ones. -/
theorem defined_of_operation {operation : UnpackedFloat → UnpackedFloat → UnpackedFloat}
    (left : ∀ v, operation .notANumber v = .notANumber)
    (right : ∀ u, operation u .notANumber = .notANumber)
    (defined : operation x.toModel.unpack y.toModel.unpack ≠ .notANumber)
    : x ≤ x ∧ y ≤ y := by
  rw [defined_iff, defined_iff]
  constructor
  · intro undefined
    rw [undefined, left] at defined
    exact defined rfl
  · intro undefined
    rw [undefined, right] at defined
    exact defined rfl

theorem defined_of_add (defined : x + y ≤ x + y) : x ≤ x ∧ y ≤ y :=
  defined_of_operation (fun _ => rfl) (fun u => by cases u <;> rfl)
    (ne_notANumber_of_defined (unpack_add x y) defined)

theorem defined_of_mul (defined : x * y ≤ x * y) : x ≤ x ∧ y ≤ y :=
  defined_of_operation (fun _ => rfl) (fun u => by cases u <;> rfl)
    (ne_notANumber_of_defined (unpack_mul x y) defined)

theorem sign_doubleValue_add (defined : x + y ≤ x + y)
    : SignType.sign (doubleValue (x + y)) = SignType.sign (doubleValue x + doubleValue y) := by
  obtain ⟨result, same⟩ :=
    hasSign_add (isDouble_unpack x.toModel) (isDouble_unpack y.toModel)
      (ne_notANumber_of_defined (unpack_add x y) defined)
  exact (sign_value_pack result).trans same

theorem sign_doubleValue_mul (defined : x * y ≤ x * y)
    : SignType.sign (doubleValue (x * y)) = 0
      ∨ SignType.sign (doubleValue (x * y)) = SignType.sign (doubleValue x * doubleValue y) := by
  obtain ⟨result, same⟩ :=
    mul_spec (isDouble_unpack x.toModel) (isDouble_unpack y.toModel)
      (ne_notANumber_of_defined (unpack_mul x y) defined)
  rwa [← sign_value_pack result] at same

theorem abs_doubleValue_le_mul (defined : x * y ≤ x * y) (great : 1 ≤ |doubleValue x|)
    : |doubleValue y| ≤ |doubleValue (x * y)| :=
  abs_value_le_mul (isDouble_unpack x.toModel) (isDouble_unpack y.toModel) great
    (ne_notANumber_of_defined (unpack_mul x y) defined)

end Operations

end Decimal.Binary

end InteriorPoint
