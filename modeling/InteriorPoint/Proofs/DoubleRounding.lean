import InteriorPoint.Proofs.DoubleValue

/-! What rounding does to the parts of a double. The mantissa is cut off at the exponent of a double
and rounded up or left alone, so what results is a zero or has parts that doubles have, and it is
not below any double that the exact number was not below. Such parts come back from the bits they
are packed into.
-/

namespace InteriorPoint

namespace Decimal.Binary

open Float.Model Float.Model.UnpackedFloat

-----------------------------------------------------------------------------------------
-- Shifting
-----------------------------------------------------------------------------------------

theorem mantissa_shiftRight (em : ExtendedMantissa) (k : Nat)
    : (em >>> k).mantissa = em.mantissa / 2 ^ k := by
  change (Nat.repeat ExtendedMantissa.shiftRightOne k em).mantissa = _
  induction k with
  | zero => simp [Nat.repeat]
  | succ k ih =>
      rw [Nat.repeat, ExtendedMantissa.shiftRightOne, ih, Nat.div_div_eq_div_mul, pow_succ]

theorem roundedMantissa_cases (em : ExtendedMantissa)
    : em.roundedMantissa = em.mantissa ∨ em.roundedMantissa = em.mantissa + 1 := by
  rw [ExtendedMantissa.roundedMantissa]
  cases em.accuracy with
  | exact => exact .inl rfl
  | inexact o =>
      cases o with
      | lt => exact .inl rfl
      | eq =>
          simp only [Accuracy.roundToNearestEven]
          omega
      | gt => exact .inr rfl

/-- A mantissa and an exponent that doubles have, if the exponent is not too large. -/
structure Fits (m : Nat) (e : Int) : Prop where
  bound : m < 2 ^ 53
  least : -1074 ≤ e
  normal : e = -1074 ∨ 2 ^ 52 ≤ m

/-- The exponent at which a number is rounded. -/
theorem targetExponent_eq (m : Nat) (e : Int)
    : Format.binary64.targetExponent (totalExponent m e) = max (m.log2 + e - 52) (-1074) := by
  rw [Format.targetExponent, totalExponent, Format.mantissaBits, Format.minExponent]
  norm_num [Format.mantissaBits]
  omega

theorem shiftToTargetExponent_eq {m : Nat} {e : Int} (acc : Accuracy)
    (below : e ≤ max (m.log2 + e - 52) (-1074))
    : (shiftToTargetExponent Format.binary64 m e acc).2 = max (m.log2 + e - 52) (-1074)
      ∧ (shiftToTargetExponent Format.binary64 m e acc).1.mantissa
        = m / 2 ^ (max (m.log2 + e - 52) (-1074) - e).toNat := by
  rw [shiftToTargetExponent, targetExponent_eq, shiftToExponent]
  refine ⟨by dsimp only; omega, ?_⟩
  dsimp only
  rw [mantissa_shiftRight]
  cases acc with
  | exact => rfl
  | inexact o => cases o <;> rfl

theorem shiftToTargetExponent_fits {m : Nat} {e : Int} (acc : Accuracy)
    (above : max (m.log2 + e - 52) (-1074) ≤ e)
    : (shiftToTargetExponent Format.binary64 m e acc).2 = e
      ∧ (shiftToTargetExponent Format.binary64 m e acc).1.mantissa = m := by
  have none : (max (m.log2 + e - 52) (-1074) - e).toNat = 0 := by omega
  rw [shiftToTargetExponent, targetExponent_eq, shiftToExponent]
  dsimp only
  rw [none, mantissa_shiftRight]
  refine ⟨by simp, ?_⟩
  cases acc with
  | exact => simp [ExtendedMantissa.ofMantissaAndAccuracy]
  | inexact o => cases o <;> simp [ExtendedMantissa.ofMantissaAndAccuracy]

/-- A whole power of two at a greater exponent. -/
theorem zpow_eq_mul {e k : Int} (le : k ≤ e) : (2 : ℚ) ^ e = 2 ^ (e - k).toNat * 2 ^ k := by
  rw [← zpow_natCast, ← zpow_add₀ two_ne_zero]
  congr 1
  omega

section Quotient

variable {N : Nat} {k t : Int}

/-- What is left of a number at the exponent of a double. -/
theorem quotient_fits (positive : 0 < N) (below : k ≤ t)
    (target : t = max (N.log2 + k - 52) (-1074))
    : N / 2 ^ (t - k).toNat < 2 ^ 53 ∧ (t = -1074 ∨ 2 ^ 52 ≤ N / 2 ^ (t - k).toNat) := by
  constructor
  · rw [Nat.div_lt_iff_lt_mul (by positivity), ← pow_add]
    refine (Nat.lt_log2_self (n := N)).trans_le (Nat.pow_le_pow_right two_pos ?_)
    omega
  · by_cases least : t = -1074
    · exact .inl least
    · right
      rw [Nat.le_div_iff_mul_le (by positivity), ← pow_add]
      refine le_trans (Nat.pow_le_pow_right two_pos ?_) (Nat.log2_self_le positive.ne')
      omega

/-- It is not below any double that the number was not below. -/
theorem le_quotient (positive : 0 < N) (below : k ≤ t)
    (target : t = max (N.log2 + k - 52) (-1074)) {m : Nat} {e : Int} (bound : m < 2 ^ 53)
    (least : -1074 ≤ e) (le : (m : ℚ) * 2 ^ e ≤ N * 2 ^ k)
    : (m : ℚ) * 2 ^ e ≤ (N / 2 ^ (t - k).toNat : Nat) * 2 ^ t := by
  by_cases high : t ≤ e
  · have whole : m * 2 ^ (e - t).toNat * 2 ^ (t - k).toNat ≤ N := by
      have exponents : (e - k).toNat = (e - t).toNat + (t - k).toNat := by omega
      rw [zpow_eq_mul (below.trans high), exponents, pow_add, ← mul_assoc, ← mul_assoc] at le
      have scaled := le_of_mul_le_mul_right le (by positivity)
      exact_mod_cast scaled
    have floor := (Nat.le_div_iff_mul_le (by positivity)).mpr whole
    rw [zpow_eq_mul high, ← mul_assoc]
    gcongr
    exact_mod_cast floor
  · have normal := (quotient_fits positive below target).2.resolve_left (by omega)
    calc (m : ℚ) * 2 ^ e
        ≤ 2 ^ 53 * 2 ^ e := by gcongr; exact_mod_cast bound.le
      _ = 2 ^ 52 * 2 ^ (e + 1) := by rw [zpow_add₀ two_ne_zero]; ring
      _ ≤ 2 ^ 52 * 2 ^ t := by gcongr; exacts [one_le_two, by omega]
      _ ≤ _ := by gcongr; exact_mod_cast normal

end Quotient

-----------------------------------------------------------------------------------------
-- Rounding
-----------------------------------------------------------------------------------------

/-- The size of a number that is not infinite. -/
def size : UnpackedFloat → ℚ
  | .finite _ mantissa exponent _ => mantissa * 2 ^ exponent
  | _ => 0

/-- What rounding makes of a number with a sign: a zero of that sign, or parts that doubles have. -/
inductive IsRounded (sign : Sign) : UnpackedFloat → Prop
  | zero : IsRounded sign (.zero sign)
  | finite {m : Nat} {e : Int} (positive : 0 < m) (fits : Fits m e)
    : IsRounded sign (.finite sign m e positive)

/-- One number is not below any double that another is not below. -/
def KeepsBounds (a b : ℚ) : Prop :=
  ∀ (m : Nat) (e : Int), m < 2 ^ 53 → -1074 ≤ e → (m : ℚ) * 2 ^ e ≤ a → (m : ℚ) * 2 ^ e ≤ b

/-- A mantissa that rounding up has made a power of two is shifted once more, without a loss. -/
theorem shiftToTargetExponent_rounded {R : Nat} {t : Int} (bound : R ≤ 2 ^ 53)
    (least : -1074 ≤ t) (normal : t = -1074 ∨ 2 ^ 52 ≤ R)
    : let shifted := shiftToTargetExponent Format.binary64 R t .exact
      Fits shifted.1.mantissa shifted.2
      ∧ (shifted.1.mantissa : ℚ) * 2 ^ shifted.2 = R * 2 ^ t := by
  dsimp only
  rcases bound.lt_or_eq with small | rfl
  · have log : R.log2 ≤ 52 := by
      by_cases zero : R = 0
      · simp [zero]
      · exact Nat.le_of_lt_succ ((Nat.log2_lt zero).mpr small)
    obtain ⟨exponent, mantissa⟩ := shiftToTargetExponent_fits (m := R) (e := t) .exact (by omega)
    rw [exponent, mantissa]
    exact ⟨⟨small, least, normal⟩, rfl⟩
  · have log : (2 ^ 53 : Nat).log2 = 53 := Nat.log2_two_pow
    obtain ⟨exponent, mantissa⟩ :=
      shiftToTargetExponent_eq (m := 2 ^ 53) (e := t) .exact (by omega)
    have next : max ((2 ^ 53 : Nat).log2 + t - 52) (-1074) = t + 1 := by omega
    have one : (t + 1 - t).toNat = 1 := by omega
    rw [exponent, mantissa, next, one]
    refine ⟨⟨by norm_num, by omega, by norm_num⟩, ?_⟩
    rw [zpow_add₀ two_ne_zero]
    norm_num
    ring

/-- Rounding keeps the sign and does not go below a double that the number is not below. -/
theorem isRounded_roundWithAccuracy (sign : Sign) {N : Nat} {k : Int} (positive : 0 < N)
    (below : k ≤ max (N.log2 + k - 52) (-1074))
    : IsRounded sign (roundWithAccuracy Format.binary64 sign N k .exact)
      ∧ KeepsBounds (N * 2 ^ k) (size (roundWithAccuracy Format.binary64 sign N k .exact)) := by
  obtain ⟨exponent, mantissa⟩ := shiftToTargetExponent_eq .exact below
  generalize target : max (N.log2 + k - 52) (-1074) = t at below exponent mantissa
  have least : -1074 ≤ t := by omega
  have fits := quotient_fits positive below target.symm
  have lower (m : Nat) (e : Int) := @le_quotient N k t positive below target.symm m e
  rw [roundWithAccuracy]
  generalize shiftToTargetExponent Format.binary64 N k .exact = shifted at exponent mantissa ⊢
  obtain ⟨em, t'⟩ := shifted
  dsimp only at exponent mantissa ⊢
  subst exponent
  have rounded := roundedMantissa_cases em
  rw [mantissa] at rounded
  generalize N / 2 ^ (t' - k).toNat = Q at fits lower rounded
  generalize em.roundedMantissa = R at rounded ⊢
  obtain ⟨settled, value⟩ :=
    shiftToTargetExponent_rounded (R := R) (by omega) least (fits.2.imp_right (by omega))
  generalize shiftToTargetExponent Format.binary64 R t' .exact = last at settled value ⊢
  obtain ⟨em, E⟩ := last
  dsimp only at settled value ⊢
  have grown : KeepsBounds (N * 2 ^ k) (em.mantissa * 2 ^ E) := by
    intro m e bound least le
    rw [value]
    refine (lower m e bound least le).trans ?_
    gcongr
    omega
  split
  · next zero =>
      simp only [zero, Nat.cast_zero, zero_mul] at grown
      exact ⟨.zero, grown⟩
  · exact ⟨.finite _ settled, grown⟩

theorem log2_shiftLeft {N : Nat} (positive : 0 < N) (j : Nat) : (N <<< j).log2 = N.log2 + j := by
  have nonzero : N <<< j ≠ 0 := by
    rw [Nat.shiftLeft_eq]
    positivity
  rw [Nat.log2_eq_iff nonzero, Nat.shiftLeft_eq, pow_add, Nat.add_right_comm, pow_add]
  have lower := Nat.log2_self_le positive.ne'
  have upper := Nat.lt_log2_self (n := N)
  exact ⟨by gcongr, by gcongr⟩

/-- The same where the exponent may be too great at first. -/
theorem isRounded_round (sign : Sign) {N : Nat} {k : Int} (positive : 0 < N)
    : IsRounded sign (UnpackedFloat.round Format.binary64 sign N k)
      ∧ KeepsBounds (N * 2 ^ k) (size (UnpackedFloat.round Format.binary64 sign N k)) := by
  rw [UnpackedFloat.round, targetExponent_eq, decreaseExponent]
  dsimp only
  generalize shifted : (k - max (N.log2 + k - 52) (-1074)).toNat = j
  have nonzero : 0 < N <<< j := by
    rw [Nat.shiftLeft_eq]
    positivity
  have log := log2_shiftLeft positive j
  have value : ((N <<< j : Nat) : ℚ) * 2 ^ (k - j) = N * 2 ^ k := by
    rw [Nat.shiftLeft_eq, zpow_sub₀ two_ne_zero, zpow_natCast]
    push_cast
    field_simp
  have rounded := isRounded_roundWithAccuracy sign (k := k - j) nonzero (by omega)
  rwa [value] at rounded

-----------------------------------------------------------------------------------------
-- Packing
-----------------------------------------------------------------------------------------

theorem toNat_packComponents (sign : Sign) (exponent : BitVec 11) (mantissa : BitVec 52)
    : (packComponents Format.binary64 sign exponent mantissa).toNat
      = sign.toBitVec.toNat * Nat.pow 2 63 + exponent.toNat * Nat.pow 2 52 + mantissa.toNat := by
  have small : mantissa.toNat < 2 ^ 52 := mantissa.isLt
  have narrow : exponent.toNat < 2 ^ 11 := exponent.isLt
  rw [packComponents, BitVec.toNat_append, BitVec.toNat_append,
    ← Nat.shiftLeft_add_eq_or_of_lt small, ← Nat.shiftLeft_add_eq_or_of_lt narrow,
    Nat.shiftLeft_eq, Nat.shiftLeft_eq]
  norm_num
  omega

theorem unpackSign_packComponents (sign : Sign) (exponent : BitVec 11) (mantissa : BitVec 52)
    : Sign.ofBitVec (unpackSign (packComponents Format.binary64 sign exponent mantissa))
      = sign := by
  have small : mantissa.toNat < 2 ^ 52 := mantissa.isLt
  have narrow : exponent.toNat < 2 ^ 11 := exponent.isLt
  have bit : sign.toBitVec.toNat < 2 := sign.toBitVec.isLt
  have same
      : unpackSign (packComponents Format.binary64 sign exponent mantissa) = sign.toBitVec := by
    apply BitVec.eq_of_toNat_eq
    simp only [unpackSign, BitVec.toNat_cast, BitVec.extractLsb_toNat, Nat.shiftRight_eq_div_pow,
      toNat_packComponents]
    norm_num
    omega
  rw [same]
  cases sign <;> rfl

section Unpack

variable {b : BitVec 64} {sign : Sign}

theorem unpack_infinity (exponent : @unpackExponent Format.binary64 b = -1#11)
    (mantissa : @unpackMantissa Format.binary64 b = 0#52)
    : UnpackedFloat.unpack Format.binary64 b
      = .infinity (.ofBitVec (@unpackSign Format.binary64 b)) := by
  rw [UnpackedFloat.unpack]
  exact (if_pos exponent).trans (if_pos mantissa)

theorem unpack_zero (exponent : @unpackExponent Format.binary64 b = 0#11)
    (mantissa : @unpackMantissa Format.binary64 b = 0#52)
    : UnpackedFloat.unpack Format.binary64 b
      = .zero (.ofBitVec (@unpackSign Format.binary64 b)) := by
  have other : ¬@unpackExponent Format.binary64 b = -1#11 := by
    rw [exponent]
    decide
  rw [UnpackedFloat.unpack]
  exact (if_neg other).trans ((if_pos exponent).trans (dif_pos mantissa))

theorem unpack_subnormal (exponent : @unpackExponent Format.binary64 b = 0#11)
    (positive : 0 < (@unpackMantissa Format.binary64 b).toNat)
    : UnpackedFloat.unpack Format.binary64 b
      = .finite (.ofBitVec (@unpackSign Format.binary64 b))
          (@unpackMantissa Format.binary64 b).toNat (-1074) positive := by
  have other : ¬@unpackExponent Format.binary64 b = -1#11 := by
    rw [exponent]
    decide
  have mantissa : ¬@unpackMantissa Format.binary64 b = 0#52 := by
    intro zero
    rw [zero] at positive
    exact absurd positive (by decide)
  rw [UnpackedFloat.unpack]
  refine (if_neg other).trans ((if_pos exponent).trans ((dif_neg mantissa).trans ?_))
  congr 1
  rw [exponent]
  rfl

theorem unpack_normal (finite : ¬@unpackExponent Format.binary64 b = -1#11)
    (normal : ¬@unpackExponent Format.binary64 b = 0#11)
    : ∃ positive,
        UnpackedFloat.unpack Format.binary64 b
        = .finite (.ofBitVec (@unpackSign Format.binary64 b))
            (2 ^ 52 + (@unpackMantissa Format.binary64 b).toNat)
            ((@unpackExponent Format.binary64 b).toNat - 1075) positive := by
  have small : (@unpackMantissa Format.binary64 b).toNat < 2 ^ 52 :=
    (@unpackMantissa Format.binary64 b).isLt
  have hidden
      : (1#1 ++ @unpackMantissa Format.binary64 b).toNat
        = 2 ^ 52 + (@unpackMantissa Format.binary64 b).toNat := by
    rw [BitVec.toNat_append, ← Nat.shiftLeft_add_eq_or_of_lt small]
    rfl
  refine ⟨by positivity, ?_⟩
  rw [UnpackedFloat.unpack]
  refine (if_neg finite).trans ((if_neg normal).trans ?_)
  congr 1

/-- The parts of a double fit, and its exponent is not too large. -/
theorem fits_of_unpack {m : Nat} {e : Int} {positive : 0 < m}
    (h : UnpackedFloat.unpack Format.binary64 b = .finite sign m e positive)
    : Fits m e ∧ e < 972 := by
  have small : (@unpackMantissa Format.binary64 b).toNat < 2 ^ 52 :=
    (@unpackMantissa Format.binary64 b).isLt
  have narrow : (@unpackExponent Format.binary64 b).toNat < 2 ^ 11 :=
    (@unpackExponent Format.binary64 b).isLt
  by_cases infinite : @unpackExponent Format.binary64 b = -1#11
  · rw [UnpackedFloat.unpack] at h
    have other := (if_pos infinite).symm.trans h
    split at other <;> cases other
  · by_cases least : @unpackExponent Format.binary64 b = 0#11
    · by_cases mantissa : @unpackMantissa Format.binary64 b = 0#52
      · rw [unpack_zero least mantissa] at h
        cases h
      · have nonzero : 0 < (@unpackMantissa Format.binary64 b).toNat := by
          rw [Nat.pos_iff_ne_zero]
          exact fun zero => mantissa (BitVec.eq_of_toNat_eq zero)
        rw [unpack_subnormal least nonzero] at h
        cases h
        exact ⟨⟨by omega, le_rfl, .inl rfl⟩, by norm_num⟩
    · obtain ⟨_, value⟩ := unpack_normal infinite least
      have nonzero : (@unpackExponent Format.binary64 b).toNat ≠ 0 :=
        fun zero => least (BitVec.eq_of_toNat_eq zero)
      have other : (@unpackExponent Format.binary64 b).toNat ≠ 2047 :=
        fun full => infinite (BitVec.eq_of_toNat_eq full)
      rw [value] at h
      cases h
      exact ⟨⟨by omega, by omega, .inr (by omega)⟩, by omega⟩

end Unpack

/-- The exponent that is packed. -/
theorem biasedExponent_eq (e : Int)
    : (e + Format.binary64.exponentBias + Format.binary64.mantissaBitsWithoutImplicit).toNat
      = (e + 1075).toNat := by
  have bias : (Format.binary64.exponentBias : Int) = 1023 := rfl
  rw [bias]
  congr 1
  dsimp only
  omega

section Pack

variable {sign : Sign} {m : Nat} {e : Int}

theorem unpack_packComponents_normal (positive : 0 < m) (bound : m < 2 ^ 53) (great : 2 ^ 52 ≤ m)
    (least : -1074 ≤ e) (range : (e + 1075).toNat + 1 < 2048)
    : UnpackedFloat.unpack Format.binary64
        (packComponents Format.binary64 sign (.ofNat 11 (e + 1075).toNat) (.ofNat 52 m))
      = .finite sign m e positive := by
  have exponents :=
    @unpackExponent_packComponents .binary64 sign (.ofNat 11 (e + 1075).toNat) (.ofNat 52 m)
  have mantissas :=
    @unpackMantissa_packComponents .binary64 sign (.ofNat 11 (e + 1075).toNat) (.ofNat 52 m)
  have exponent : (BitVec.ofNat 11 (e + 1075).toNat).toNat = (e + 1075).toNat := by
    rw [BitVec.toNat_ofNat]
    omega
  have mantissa : (BitVec.ofNat 52 m).toNat = m - 2 ^ 52 := by
    rw [BitVec.toNat_ofNat]
    omega
  have finite : ¬BitVec.ofNat 11 (e + 1075).toNat = -1#11 := by
    rw [BitVec.toNat_eq, exponent]
    simp
    omega
  have normal : ¬BitVec.ofNat 11 (e + 1075).toNat = 0#11 := by
    rw [BitVec.toNat_eq, exponent]
    simp
    omega
  rw [← exponents] at finite normal
  obtain ⟨_, value⟩ := unpack_normal finite normal
  refine value.trans ?_
  congr 1
  · exact unpackSign_packComponents ..
  · rw [mantissas, mantissa]
    omega
  · rw [exponents, exponent]
    omega

theorem unpack_packComponents_subnormal (positive : 0 < m) (small : m < 2 ^ 52)
    : UnpackedFloat.unpack Format.binary64
        (packComponents Format.binary64 sign 0#11 (.ofNat 52 m))
      = .finite sign m (-1074) positive := by
  have mantissas := @unpackMantissa_packComponents .binary64 sign 0#11 (.ofNat 52 m)
  have mantissa : (BitVec.ofNat 52 m).toNat = m := by
    rw [BitVec.toNat_ofNat]
    omega
  refine (unpack_subnormal unpackExponent_packComponents (by rwa [mantissas, mantissa])).trans ?_
  congr 1
  · exact unpackSign_packComponents ..
  · rw [mantissas, mantissa]

/-- Of the parts that doubles have, those are too great whose exponent is. -/
theorem size_lt_iff (fits : Fits m e) : (m : ℚ) * 2 ^ e < 2 ^ 1024 ↔ e < 972 := by
  constructor
  · intro small
    by_contra! high
    have normal : (2 : ℚ) ^ 52 ≤ m := by exact_mod_cast fits.normal.resolve_left (by omega)
    have power : (2 : ℚ) ^ (972 : Int) ≤ 2 ^ e := zpow_le_zpow_right₀ one_le_two high
    have great : (2 : ℚ) ^ 1024 ≤ m * 2 ^ e := by
      calc (2 : ℚ) ^ 1024 = 2 ^ 52 * 2 ^ (972 : Int) := by
            rw [← zpow_natCast, ← zpow_natCast, ← zpow_add₀ two_ne_zero]
            norm_num
        _ ≤ (m : ℚ) * 2 ^ e :=
            mul_le_mul normal power (zpow_pos two_pos _).le (Nat.cast_nonneg m)
    exact small.not_ge great
  · intro low
    have bound : (m : ℚ) < 2 ^ 53 := by exact_mod_cast fits.bound
    calc (m : ℚ) * 2 ^ e
        < 2 ^ 53 * 2 ^ e := by gcongr
      _ ≤ 2 ^ 53 * 2 ^ (971 : Int) := by gcongr; exacts [one_le_two, by omega]
      _ = 2 ^ 1024 := by
          rw [← zpow_natCast, ← zpow_natCast, ← zpow_add₀ two_ne_zero]
          norm_num

/-- What rounding makes of a number comes back from the bits of a double, unless it is too great and
gets infinite.
-/
theorem unpack_pack_cases {u : UnpackedFloat} (h : IsRounded sign u)
    : size u < 2 ^ 1024 ∧ (Float.Model.pack u).unpack = u
      ∨ 2 ^ 1024 ≤ size u ∧ (Float.Model.pack u).unpack = .infinity sign := by
  change size u < 2 ^ 1024
      ∧ UnpackedFloat.unpack Format.binary64 (UnpackedFloat.pack Format.binary64 u) = u
    ∨ 2 ^ 1024 ≤ size u
      ∧ UnpackedFloat.unpack Format.binary64 (UnpackedFloat.pack Format.binary64 u)
        = .infinity sign
  cases h with
  | zero =>
      refine .inl ⟨by simp [size], ?_⟩
      refine (unpack_zero unpackExponent_packComponents unpackMantissa_packComponents).trans ?_
      exact congrArg UnpackedFloat.zero (unpackSign_packComponents ..)
  | @finite m e positive fits =>
      have finite_iff := size_lt_iff fits
      obtain ⟨bound, least, normal⟩ := fits
      rw [UnpackedFloat.pack, size]
      dsimp only
      rw [biasedExponent_eq]
      split
      · next range =>
          refine .inr ⟨not_lt.mp (mt finite_iff.mp (by omega)), ?_⟩
          refine (unpack_infinity unpackExponent_packComponents
            unpackMantissa_packComponents).trans ?_
          exact congrArg UnpackedFloat.infinity (unpackSign_packComponents ..)
      · next range =>
          refine .inl ⟨finite_iff.mpr (by omega), ?_⟩
          split
          · next full =>
              have full : m.log2 = 52 := Nat.succ.inj full
              have great : 2 ^ 52 ≤ m := full ▸ Nat.log2_self_le positive.ne'
              exact unpack_packComponents_normal positive bound great least (not_le.mp range)
          · next short =>
              have small : m < 2 ^ 52 := by
                by_contra great
                have full : m.log2 = 52 :=
                  (Nat.log2_eq_iff positive.ne').mpr ⟨not_lt.mp great, bound⟩
                exact short (congrArg Nat.succ full)
              obtain rfl := normal.resolve_right (by omega)
              exact unpack_packComponents_subnormal positive small

theorem unpack_pack {u : UnpackedFloat} (h : IsRounded sign u)
    : (Float.Model.pack u).unpack = u
      ∨ 0 < size u ∧ (Float.Model.pack u).unpack = .infinity sign := by
  rcases unpack_pack_cases h with ⟨-, same⟩ | ⟨great, infinite⟩
  · exact .inl same
  · exact .inr ⟨lt_of_lt_of_le (by positivity) great, infinite⟩

end Pack

end Decimal.Binary

end InteriorPoint
