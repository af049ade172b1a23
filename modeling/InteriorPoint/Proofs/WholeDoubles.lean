import InteriorPoint.Proofs.DoubleSigns

/-! Whole numbers as doubles. A double without a fraction is equal to one whole number, and a whole
number becomes the double nearest to it, unless that would be too great.
-/

namespace InteriorPoint

namespace Decimal

/-- Rounding a quotient does not depend on how it is written. -/
theorem roundDiv_mul_right (num den : Nat) {k : Nat} (positive : 0 < k)
    : roundDiv (num * k) (den * k) = roundDiv num den := by
  have lower (rest : Nat) : 2 * (rest * k) < den * k ↔ 2 * rest < den := by
    rw [← Nat.mul_assoc, Nat.mul_lt_mul_right positive]
  have upper (rest : Nat) : den * k < 2 * (rest * k) ↔ den < 2 * rest := by
    rw [← Nat.mul_assoc, Nat.mul_lt_mul_right positive]
  simp only [roundDiv, Nat.mul_div_mul_right _ _ positive, Nat.mul_mod_mul_right, lower, upper]

namespace Binary

open Float.Model Float.Model.UnpackedFloat

-----------------------------------------------------------------------------------------
-- Finite doubles
-----------------------------------------------------------------------------------------

/-- A value that is neither infinite nor undefined. -/
def IsFinite : Binary → Prop
  | .finite .. => True
  | .undefined | .infinite _ => False

theorem unpack_sub (x y : Float)
    : (x - y).toModel.unpack
      = (Float.Model.pack (.sub .binary64 x.toModel.unpack y.toModel.unpack)).unpack :=
  rfl

/-- What is left of a double that is taken from itself is a zero, if the double is finite. -/
theorem sub_self_eq (u : UnpackedFloat)
    : (ofUnpacked u).IsFinite ∧ UnpackedFloat.sub .binary64 u u = .zero .positive
      ∨ ¬(ofUnpacked u).IsFinite ∧ UnpackedFloat.sub .binary64 u u = .notANumber := by
  cases u with
  | notANumber => exact .inr ⟨id, rfl⟩
  | infinity sign => cases sign <;> exact .inr ⟨id, rfl⟩
  | zero sign => cases sign <;> exact .inl ⟨trivial, rfl⟩
  | finite sign mantissa exponent positive =>
      refine .inl ⟨trivial, ?_⟩
      simp only [UnpackedFloat.sub, Int.sub_self]
      rfl

theorem isFinite_iff (x : Float)
    : isFinite x ↔ (ofFloat x).IsFinite := by
  have zero : rank (0 : Float).toModel.unpack = some (toLex (0, toLex (0, 0))) := by
    decide +kernel
  have nothing
      : rank (Float.Model.pack (.zero .positive)).unpack = some (toLex (0, toLex (0, 0))) := by
    decide +kernel
  rw [isFinite, decide_eq_true_iff, le_iff_rank, zero, unpack_sub, ofFloat_eq]
  rcases sub_self_eq x.toModel.unpack with ⟨finite, left⟩ | ⟨infinite, left⟩
  · rw [left, nothing]
    exact iff_of_true ⟨_, rfl, _, rfl, le_rfl⟩ finite
  · rw [left, unpack_pack_notANumber]
    exact iff_of_false (by simp [rank]) infinite

/-- A finite double is smaller than `2 ^ 1024`. -/
theorem abs_doubleValue_lt {x : Float} (h : (ofFloat x).IsFinite)
    : |doubleValue x| < 2 ^ 1024 := by
  rw [ofFloat_eq] at h
  rw [doubleValue]
  cases parts : x.toModel.unpack with
  | notANumber | infinity =>
      rw [parts] at h
      exact h.elim
  | zero sign => simp [value]
  | finite sign m e positive =>
      obtain ⟨fits, exponent⟩ := fits_of_unpack parts
      rw [abs_value_finite]
      exact (size_lt_iff fits).mpr exponent

/-- The bits of a finite double can be told from its parts. -/
theorem toNat_toBits_of_ofFloat {x : Float} {negative : Bool} {m : Nat} {e : Int}
    (h : ofFloat x = .finite negative m e)
    : x.toBits.toNat
      = negative.toNat * 2 ^ 63
        + (if m < 2 ^ 52 then m else (e + 1075).toNat * 2 ^ 52 + (m - 2 ^ 52)) := by
  have range : x.toBits.toNat < 2 ^ 64 := x.toBits.toNat_lt
  rw [ofFloat] at h
  generalize x.toBits.toNat = b at h range
  simp only [Nat.pow_eq] at h
  have bit : ((b / 2 ^ 63 % 2 == 1 : Bool)).toNat = b / 2 ^ 63 := by
    rcases Nat.mod_two_eq_zero_or_one (b / 2 ^ 63) with zero | one
    · rw [zero, show b / 2 ^ 63 = 0 by omega]
      rfl
    · rw [one, show b / 2 ^ 63 = 1 by omega]
      rfl
  split at h
  · split at h <;> cases h
  · split at h
    · cases h
      rw [bit, if_pos (by omega)]
      omega
    · cases h
      rw [bit, if_neg (by omega)]
      omega

/-- The place of a finite double in the order gives its parts, unless it is a zero. -/
theorem ofUnpacked_eq_of_rank_eq {u v : UnpackedFloat} {a : ℤ ×ₗ ℤ ×ₗ ℤ}
    (first : rank u = some a) (second : rank v = some a) (nonzero : value u ≠ 0)
    : ofUnpacked u = ofUnpacked v := by
  rw [← second] at first
  rcases u with (_ | _) | _ | _ | ⟨_ | _, m, e, positive⟩ <;>
    rcases v with (_ | _) | _ | _ | ⟨_ | _, m', e', positive'⟩ <;>
    simp [rank] at first <;>
    simp [value, ofUnpacked, first] at nonzero ⊢

/-- Finite doubles of the same value are the same, unless they are zeros. -/
theorem eq_of_doubleValue {x y : Float} (hx : (ofFloat x).IsFinite) (hy : (ofFloat y).IsFinite)
    (same : doubleValue x = doubleValue y) (nonzero : doubleValue x ≠ 0)
    : x = y := by
  have ranked {z : Float} (finite : (ofFloat z).IsFinite) : ∃ a, rank z.toModel.unpack = some a :=
    Option.ne_none_iff_exists'.mp fun none => by
      rwa [ofFloat_eq, rank_eq_none_iff.mp none] at finite
  obtain ⟨a, first⟩ := ranked hx
  obtain ⟨b, second⟩ := ranked hy
  obtain rfl : a = b := by
    rcases lt_trichotomy a b with below | equal | above
    · exact absurd same
        (value_lt_of_rank_lt (isDouble_unpack _) (isDouble_unpack _) first second below).ne
    · exact equal
    · exact absurd same
        (value_lt_of_rank_lt (isDouble_unpack _) (isDouble_unpack _) second first above).ne'
  have parts : ofFloat x = ofFloat y := by
    rw [ofFloat_eq, ofFloat_eq, ofUnpacked_eq_of_rank_eq first second nonzero]
  rw [← Float.toBits_inj, ← UInt64.toNat_inj]
  cases value : ofFloat x with
  | finite negative m e =>
      rw [toNat_toBits_of_ofFloat value, toNat_toBits_of_ofFloat (parts ▸ value)]
  | undefined | infinite =>
      rw [value] at hx
      exact hx.elim

-----------------------------------------------------------------------------------------
-- Doubles that are whole numbers
-----------------------------------------------------------------------------------------

/-- A power of two, as a quotient of whole ones. -/
theorem two_zpow_eq (e : Int)
    : (2 : ℚ) ^ e = (Nat.pow 2 e.toNat : Nat) / (Nat.pow 2 (-e).toNat : Nat) := by
  obtain ⟨k, rfl | rfl⟩ := e.eq_nat_or_neg
  · simp
  · simp

section Whole

variable {negative : Bool} {m : Nat} {e n : Int}

/-- The parts of a double are equal to a whole number if the denominator divides out. -/
theorem toInt?_finite_eq_some_iff
    : (finite negative m e).toInt? = some n
      ↔ (if negative then -(m * 2 ^ e) else m * 2 ^ e : ℚ) = n := by
  have positive : 0 < Nat.pow 2 (-e).toNat := Nat.two_pow_pos _
  have reduced : Nat.pow 2 e.toNat = 1 ∨ Nat.pow 2 (-e).toNat = 1 := by
    rcases le_total e 0 with below | above
    · exact .inl (by rw [Int.toNat_of_nonpos below, Nat.pow_eq, pow_zero])
    · exact .inr (by rw [Int.toNat_of_nonpos (neg_nonpos.mpr above), Nat.pow_eq, pow_zero])
  rw [toInt?, two_zpow_eq]
  generalize Nat.pow 2 e.toNat = num at reduced
  generalize Nat.pow 2 (-e).toNat = den at positive reduced
  have nonzero : (den : ℚ) ≠ 0 := by exact_mod_cast positive.ne'
  by_cases divides : den ∣ m
  · obtain ⟨k, rfl⟩ := divides
    have quotient : ((den * k : Nat) : ℚ) * (num / den) = (k * num : Nat) := by
      push_cast
      field_simp
    rw [if_pos (Nat.mul_mod_right ..), Nat.mul_div_cancel_left _ positive, quotient]
    rw [Option.some.injEq]
    cases negative <;> norm_cast
  · rw [if_neg (mt Nat.dvd_of_mod_eq_zero divides)]
    refine iff_of_false nofun fun whole => divides ?_
    have single : num = 1 := reduced.resolve_right fun one => divides (one ▸ one_dvd m)
    rw [single, Nat.cast_one, ← div_eq_mul_one_div] at whole
    obtain ⟨k, size⟩ : ∃ k : ℤ, (m : ℚ) / den = k := by
      cases negative with
      | false => exact ⟨n, whole⟩
      | true => exact ⟨-n, by push_cast; exact neg_eq_iff_eq_neg.mp whole⟩
    have multiple : (m : ℤ) = den * k := by
      rw [div_eq_iff nonzero, mul_comm] at size
      exact_mod_cast size
    exact Int.natCast_dvd_natCast.mp ⟨k, multiple⟩

theorem toInt?_eq_some_iff {x : Float}
    : (ofFloat x).toInt? = some n ↔ (ofFloat x).IsFinite ∧ doubleValue x = n := by
  rw [ofFloat_eq, doubleValue]
  cases x.toModel.unpack with
  | notANumber | infinity => simp [ofUnpacked, toInt?, IsFinite]
  | zero sign =>
      rw [ofUnpacked, toInt?_finite_eq_some_iff]
      simp [value, IsFinite]
  | finite sign mantissa exponent positive =>
      rw [ofUnpacked, toInt?_finite_eq_some_iff]
      cases sign <;> simp [value, IsFinite]

end Whole

-----------------------------------------------------------------------------------------
-- What rounding makes of a number
-----------------------------------------------------------------------------------------

section Shift

/-- A quotient by a power of two, cut off, with the bits that tell how much is missing: whether it
is half or more, and whether it is something else than nothing and a half.
-/
def cutQuotient (N s : Nat) : ExtendedMantissa where
  mantissa := N / 2 ^ s
  roundBit := decide (2 ^ s ≤ 2 * (N % 2 ^ s))
  stickyBit := decide (N % 2 ^ s ≠ 0 ∧ 2 * (N % 2 ^ s) ≠ 2 ^ s)

/-- Shifting keeps track of what is missing. -/
theorem shiftRight_eq_cutQuotient (N s : Nat)
    : (⟨N, false, false⟩ : ExtendedMantissa) >>> s = cutQuotient N s := by
  change Nat.repeat ExtendedMantissa.shiftRightOne s _ = _
  induction s with
  | zero => simp [Nat.repeat, cutQuotient, Nat.mod_one]
  | succ s ih =>
      have rest : N % 2 ^ (s + 1) = N % 2 ^ s + 2 ^ s * (N / 2 ^ s % 2) := Nat.mod_pow_succ
      have small : N % 2 ^ s < 2 ^ s := Nat.mod_lt _ (Nat.two_pow_pos s)
      rw [Nat.repeat, ih, cutQuotient, cutQuotient, ExtendedMantissa.shiftRightOne, rest, pow_succ,
        ← Nat.div_div_eq_div_mul]
      clear rest
      generalize N % 2 ^ s = r at small
      generalize N / 2 ^ s = q
      generalize 2 ^ s = d at small
      -- The bit that is shifted out is the last one of the quotient, so it is zero or one.
      congr 1
      · rw [Bool.eq_iff_iff, bne_iff_ne, decide_eq_true_iff]
        rcases Nat.mod_two_eq_zero_or_one q with even | odd
        · rw [even]
          omega
        · rw [odd]
          omega
      · rw [Bool.eq_iff_iff, Bool.or_eq_true]
        simp only [decide_eq_true_eq]
        rcases Nat.mod_two_eq_zero_or_one q with even | odd
        · rw [even]
          omega
        · rw [odd]
          omega

/-- The bits say where to round to. -/
theorem roundedMantissa_cutQuotient (N s : Nat)
    : (cutQuotient N s).roundedMantissa = roundDiv N (2 ^ s) := by
  have positive : 0 < 2 ^ s := Nat.two_pow_pos s
  rw [cutQuotient, roundDiv, ExtendedMantissa.roundedMantissa]
  dsimp only
  generalize N % 2 ^ s = r
  generalize N / 2 ^ s = q
  generalize 2 ^ s = d at positive
  rcases lt_trichotomy (2 * r) d with below | half | above
  · have cut : decide (d ≤ 2 * r) = false := by simpa using below
    rw [if_pos below, cut]
    cases decide (r ≠ 0 ∧ 2 * r ≠ d) <;> rfl
  · have up : decide (d ≤ 2 * r) = true := by simpa using half.ge
    have tie : decide (r ≠ 0 ∧ 2 * r ≠ d) = false := by simp [half]
    rw [if_neg half.not_lt, if_neg half.not_gt, up, tie]
    rfl
  · have up : decide (d ≤ 2 * r) = true := by simpa using above.le
    have more : decide (r ≠ 0 ∧ 2 * r ≠ d) = true := by
      simp only [decide_eq_true_eq]
      omega
    rw [if_neg above.not_gt, if_pos above, up, more]
    rfl

end Shift

section Size

variable {N : Nat} {k t : Int}

theorem shiftToTargetExponent_exact (target : t = max (N.log2 + k - 52) (-1074)) (below : k ≤ t)
    : shiftToTargetExponent Format.binary64 N k .exact = (cutQuotient N (t - k).toNat, t) := by
  rw [shiftToTargetExponent, targetExponent_eq, ← target, shiftToExponent,
    ← shiftRight_eq_cutQuotient]
  refine Prod.ext rfl ?_
  dsimp only
  omega

/-- What rounding makes of a number has the size of the nearest multiple of a power of two, halves
going to the even one.
-/
theorem roundWithAccuracy_spec (sign : Sign) (positive : 0 < N)
    (target : t = max (N.log2 + k - 52) (-1074)) (below : k ≤ t)
    : IsRounded sign (roundWithAccuracy Format.binary64 sign N k .exact)
      ∧ size (roundWithAccuracy Format.binary64 sign N k .exact)
        = roundDiv N (2 ^ (t - k).toNat) * 2 ^ t := by
  refine ⟨(isRounded_roundWithAccuracy sign positive (target ▸ below)).1, ?_⟩
  have fits := quotient_fits positive below target
  have rounded := roundedMantissa_cases (cutQuotient N (t - k).toNat)
  rw [roundedMantissa_cutQuotient] at rounded
  change _ = N / 2 ^ (t - k).toNat ∨ _ = N / 2 ^ (t - k).toNat + 1 at rounded
  have settled := shiftToTargetExponent_rounded (R := roundDiv N (2 ^ (t - k).toNat)) (t := t)
    (by omega) (by omega) (fits.2.imp_right (by omega))
  rw [roundWithAccuracy, shiftToTargetExponent_exact target below]
  dsimp only at settled ⊢
  rw [roundedMantissa_cutQuotient]
  generalize shiftToTargetExponent Format.binary64 _ t .exact = last at settled ⊢
  rw [← settled.2]
  split
  · next zero => simp [size, zero]
  · rfl

/-- Where the exponent is too great at first nothing is lost. -/
theorem size_round (sign : Sign) (positive : 0 < N) (above : max (N.log2 + k - 52) (-1074) ≤ k)
    : size (UnpackedFloat.round Format.binary64 sign N k) = N * 2 ^ k := by
  rw [UnpackedFloat.round, targetExponent_eq, decreaseExponent]
  dsimp only
  have nonzero (j : Nat) : 0 < N <<< j := by
    rw [Nat.shiftLeft_eq]
    positivity
  generalize target : max (N.log2 + k - 52) (-1074) = t at above ⊢
  have amount : (((k - t).toNat : Nat) : Int) = k - t := by omega
  have same : t = max (((N <<< (k - t).toNat).log2 : Nat) + t - 52) (-1074) := by
    rw [log2_shiftLeft positive]
    push_cast
    omega
  rw [amount, sub_sub_cancel, (roundWithAccuracy_spec sign (nonzero _) same le_rfl).2, sub_self,
    Int.toNat_zero, pow_zero, roundDiv_one, Nat.shiftLeft_eq, zpow_eq_mul above]
  push_cast
  ring

end Size

-----------------------------------------------------------------------------------------
-- Whole numbers as doubles
-----------------------------------------------------------------------------------------

/-- The nearest whole number of at most 53 binary digits; a half goes to the even neighbour. -/
def nearestWhole (n : Int) : Int :=
  let unit := 2 ^ (n.natAbs.log2 - 52)
  n.sign * (roundDiv n.natAbs unit * unit : Nat)

/-- A double of small parts is what comes of its parts times one. -/
theorem unpack_one
    : ∃ positive, (Float.ofBits 0x3FF0000000000000).toModel.unpack
        = .finite .positive (2 ^ 52) (-52) positive := by
  exact ⟨by decide, rfl⟩

theorem unpack_toFloat {n : Nat} (positive : 0 < n) (small : n < 2 ^ 53)
    : n.toUInt64.toFloat.toModel.unpack = UnpackedFloat.round Format.binary64 .positive n 0 := by
  have same : n.toUInt64.toNat = n := by
    rw [Nat.toUInt64_eq, UInt64.toNat_ofNat']
    omega
  have model
      : n.toUInt64.toFloat.toModel.unpack
        = (Float.Model.pack
            (UnpackedFloat.normalize Format.binary64 n.toUInt64.toNat 0 .positive)).unpack :=
    rfl
  have above : compare (n : Int) 0 = .gt := compare_gt_iff_gt.mpr (by omega)
  have log : n.log2 ≤ 52 := Nat.le_of_lt_succ ((Nat.log2_lt positive.ne').mpr small)
  have size_eq := size_round .positive (N := n) (k := 0) positive (by omega)
  have rounded := (isRounded_round .positive (N := n) (k := 0) positive).1
  rw [model, same, UnpackedFloat.normalize, above]
  dsimp only
  rw [Int.toNat_natCast]
  rcases unpack_pack_cases rounded with ⟨-, same⟩ | ⟨great, -⟩
  · exact same
  · rw [size_eq] at great
    have below : (n : ℚ) < 2 ^ 53 := by exact_mod_cast small
    have far : (2 : ℚ) ^ 53 ≤ 2 ^ 1024 := pow_le_pow_right₀ one_le_two (by norm_num)
    rw [zpow_zero, mul_one] at great
    exact absurd below (far.trans great).not_gt

theorem unpack_ofNat_large {n : Nat} (large : 2 ^ 53 ≤ n)
    : (Float.ofNat n).toModel.unpack
      = (Float.Model.pack
          (roundWithAccuracy Format.binary64 .positive (n <<< 53) (-53) .exact)).unpack := by
  have nonzero : n ≠ 0 := by omega
  have slow
      : Float.ofNat n
        = ⟨Float.Model.pack (UnpackedFloat.ofScientific Format.binary64 n 0)⟩ := by
    change Float.ofScientific n false 0 = _
    rw [Float.ofScientific, dif_neg (by omega)]
    rfl
  have product
      : UnpackedFloat.ofScientific Format.binary64 n 0
        = roundWithAccuracy Format.binary64 .positive (n <<< 53 * 1) (-53 + 0) .exact := by
    have moderate : ¬(0 : Int) < -(2 ^ Format.binary64.exponentBits + (n.log2 : Int)) := by
      dsimp only
      omega
    rw [UnpackedFloat.ofScientific, dif_neg nonzero, if_neg (by decide), if_neg moderate,
      if_pos le_rfl]
    rfl
  rw [slow, product, Nat.mul_one, add_zero]

/-- Multiplying by one loses nothing of the parts of a double. -/
theorem mul_one_spec {m : Nat} {e : Int} (positive : 0 < m) (fits : Fits m e)
    : IsRounded .positive
        (roundWithAccuracy Format.binary64 .positive (m * 2 ^ 52) (e + -52) .exact)
      ∧ size (roundWithAccuracy Format.binary64 .positive (m * 2 ^ 52) (e + -52) .exact)
        = m * 2 ^ e := by
  obtain ⟨bound, least, normal⟩ := fits
  have log : (m * 2 ^ 52).log2 = m.log2 + 52 := by
    rw [← Nat.shiftLeft_eq]
    exact log2_shiftLeft positive 52
  have length : m.log2 ≤ 52 := Nat.le_of_lt_succ ((Nat.log2_lt positive.ne').mpr bound)
  have full : e = -1074 ∨ m.log2 = 52 :=
    normal.imp_right fun great => (Nat.log2_eq_iff positive.ne').mpr ⟨great, bound⟩
  have target : e = max ((m * 2 ^ 52).log2 + (e + -52) - 52) (-1074) := by
    rw [log]
    push_cast
    omega
  have shift : (e - (e + -52)).toNat = 52 := by omega
  have whole := roundDiv_mul_right m 1 (k := 2 ^ 52) (by positivity)
  rw [one_mul, roundDiv_one] at whole
  have spec := roundWithAccuracy_spec .positive (by positivity) target (by omega)
  rwa [shift, whole] at spec

/-- A whole number becomes what it is rounded to, packed. -/
theorem unpack_ofNat {n : Nat} (positive : 0 < n)
    : ∃ u, IsRounded .positive u
        ∧ size u = nearestWhole n
        ∧ (Float.ofNat n).toModel.unpack = (Float.Model.pack u).unpack := by
  have sign : (n : Int).sign = 1 := Int.sign_eq_one_of_pos (by omega)
  rw [nearestWhole, sign, Int.natAbs_natCast, one_mul]
  -- A small number is exact and is multiplied by one; a large one is rounded only once.
  rcases Nat.lt_or_ge n (2 ^ 53) with small | large
  · have fast
        : Float.ofNat n = n.toUInt64.toFloat * Float.ofBits 0x3FF0000000000000 := by
      change Float.ofScientific n false 0 = _
      rw [Float.ofScientific, dif_pos ⟨small, by decide⟩]
      rfl
    have log : n.log2 ≤ 52 := Nat.le_of_lt_succ ((Nat.log2_lt positive.ne').mpr small)
    have single : n.log2 - 52 = 0 := by omega
    obtain ⟨_, one⟩ := unpack_one
    have size_eq := size_round .positive (N := n) (k := 0) positive (by omega)
    have rounded := (isRounded_round .positive (k := 0) positive).1
    rw [fast, unpack_mul, unpack_toFloat positive small, one, single, pow_zero, mul_one,
      roundDiv_one]
    generalize UnpackedFloat.round Format.binary64 .positive n 0 = v at size_eq rounded
    rw [zpow_zero, mul_one] at size_eq
    cases rounded with
    | zero =>
        have zero : (n : ℚ) = 0 := size_eq.symm
        exact absurd (by exact_mod_cast zero) positive.ne'
    | @finite m e mantissa fits =>
        obtain ⟨rounded, same⟩ := mul_one_spec mantissa fits
        exact ⟨_, rounded, same.trans size_eq, rfl⟩
  · have long : 53 ≤ n.log2 := (Nat.le_log2 positive.ne').mpr large
    have shifted : 0 < n <<< 53 := by
      rw [Nat.shiftLeft_eq]
      positivity
    have target
        : ((n.log2 - 52 : Nat) : Int) = max ((n <<< 53).log2 + (-53 : Int) - 52) (-1074) := by
      rw [log2_shiftLeft positive]
      push_cast
      omega
    obtain ⟨rounded, size_eq⟩ :=
      roundWithAccuracy_spec .positive (k := -53) shifted target (by omega)
    have amount : (((n.log2 - 52 : Nat) : Int) - -53).toNat = n.log2 - 52 + 53 := by omega
    refine ⟨_, rounded, ?_, unpack_ofNat_large large⟩
    rw [size_eq, amount, pow_add, Nat.shiftLeft_eq, roundDiv_mul_right _ _ (by positivity)]
    push_cast
    rfl

theorem nearestWhole_neg (n : Int) : nearestWhole (-n) = -nearestWhole n := by
  simp [nearestWhole]

theorem IsRounded.neg {sign : Sign} {u : UnpackedFloat} (h : IsRounded sign u)
    : IsRounded (-sign) u.neg ∧ value u.neg = -value u ∧ size u.neg = size u := by
  cases h with
  | zero => exact ⟨.zero, by simp [UnpackedFloat.neg, value], rfl⟩
  | @finite m e positive fits =>
      refine ⟨.finite positive fits, ?_, rfl⟩
      cases sign with
      | positive => rfl
      | negative => exact (neg_neg _).symm

theorem IsRounded.value_eq_size {u : UnpackedFloat} (h : IsRounded .positive u)
    : value u = size u := by
  cases h <;> rfl

/-- Packing what is rounded and changing its sign can be done in either order. -/
theorem unpack_pack_neg {sign : Sign} {u : UnpackedFloat} (h : IsRounded sign u)
    : (Float.Model.pack (Float.Model.pack u).unpack.neg).unpack
      = (Float.Model.pack u.neg).unpack := by
  obtain ⟨rounded, -, size_eq⟩ := h.neg
  rcases unpack_pack_cases h with ⟨-, same⟩ | ⟨great, infinite⟩
  · rw [same]
  · rcases unpack_pack_cases rounded with ⟨small, -⟩ | ⟨-, infinite'⟩
    · exact absurd (size_eq ▸ small) great.not_gt
    · rw [infinite, infinite', UnpackedFloat.neg, unpack_pack_infinity]

/-- Any whole number becomes what it is rounded to, packed. -/
theorem unpack_ofInt (n : Int)
    : ∃ sign u, IsRounded sign u
        ∧ value u = nearestWhole n
        ∧ (Float.ofInt n).toModel.unpack = (Float.Model.pack u).unpack := by
  rcases n with k | k
  · rcases Nat.eq_zero_or_pos k with rfl | positive
    · exact ⟨.positive, .zero .positive, .zero, by simp [value, nearestWhole], rfl⟩
    · obtain ⟨u, rounded, size_eq, packed⟩ := unpack_ofNat positive
      exact ⟨.positive, u, rounded, rounded.value_eq_size.trans size_eq, packed⟩
  · obtain ⟨u, rounded, size_eq, packed⟩ := unpack_ofNat k.succ_pos
    obtain ⟨rounded', value_eq, -⟩ := rounded.neg
    have negated
        : (Float.ofInt (Int.negSucc k)).toModel.unpack
          = (Float.Model.pack (Float.ofNat k.succ).toModel.unpack.neg).unpack :=
      rfl
    refine ⟨.negative, u.neg, rounded', ?_, ?_⟩
    · rw [value_eq, rounded.value_eq_size, size_eq, Int.negSucc_eq, nearestWhole_neg]
      push_cast
      rfl
    · rw [negated, packed, unpack_pack_neg rounded]

theorem IsRounded.isFinite {sign : Sign} {u : UnpackedFloat} (h : IsRounded sign u)
    : (ofUnpacked u).IsFinite := by
  cases h <;> exact trivial

/-- A whole number is converted to the double nearest to it, unless that would be too great. -/
theorem ofFloat_ofInt_isFinite_iff (n : Int)
    : (ofFloat (Float.ofInt n)).IsFinite ↔ |nearestWhole n| < 2 ^ 1024 := by
  obtain ⟨sign, u, rounded, value_eq, packed⟩ := unpack_ofInt n
  have size_eq : ((|nearestWhole n| : Int) : ℚ) = size u := by
    rw [Int.cast_abs, ← value_eq, rounded.abs_value]
  have bound : |nearestWhole n| < 2 ^ 1024 ↔ size u < 2 ^ 1024 := by
    rw [← size_eq, ← Int.cast_lt (R := ℚ), Int.cast_pow, Int.cast_ofNat]
  rw [ofFloat_eq, packed, bound]
  rcases unpack_pack_cases rounded with ⟨small, same⟩ | ⟨great, infinite⟩
  · rw [same]
    exact iff_of_true rounded.isFinite small
  · rw [infinite]
    exact iff_of_false id great.not_gt

theorem doubleValue_ofInt {n : Int} (finite : (ofFloat (Float.ofInt n)).IsFinite)
    : doubleValue (Float.ofInt n) = nearestWhole n := by
  obtain ⟨sign, u, rounded, value_eq, packed⟩ := unpack_ofInt n
  rw [ofFloat_eq, packed] at finite
  rw [doubleValue, packed, ← value_eq]
  rcases unpack_pack_cases rounded with ⟨-, same⟩ | ⟨-, infinite⟩
  · rw [same]
  · rw [infinite] at finite
    exact finite.elim

/-- A double that is nearest to a whole number. Zero becomes the zero without a sign. -/
structure IsDoubleOf (n : Int) (x : Float) : Prop where
  isFinite : (ofFloat x).IsFinite
  nearest : doubleValue x = nearestWhole n
  zero : n = 0 → x = 0

theorem nearestWhole_eq_zero_iff {n : Int} : nearestWhole n = 0 ↔ n = 0 := by
  constructor
  · intro zero
    by_contra nonzero
    have least : 2 ^ n.natAbs.log2 ≤ n.natAbs := Nat.log2_self_le (Int.natAbs_ne_zero.mpr nonzero)
    have unit : 2 ^ (n.natAbs.log2 - 52) ≤ 2 ^ n.natAbs.log2 :=
      Nat.pow_le_pow_right two_pos (Nat.sub_le ..)
    have rounded := roundDiv_pos (Nat.two_pow_pos _) (unit.trans least)
    have sign : n.sign ≠ 0 := mt Int.sign_eq_zero_iff_zero.mp nonzero
    refine mul_ne_zero sign ?_ zero
    positivity
  · rintro rfl
    rfl

/-- The conversion of a whole number gives the double nearest to it, if there is one. -/
theorem isDoubleOf_iff {n : Int} {x : Float}
    : IsDoubleOf n x ↔ (ofFloat (Float.ofInt n)).IsFinite ∧ Float.ofInt n = x := by
  constructor
  · rintro ⟨finite, nearest, zero⟩
    have bounded := abs_doubleValue_lt finite
    have converts : (ofFloat (Float.ofInt n)).IsFinite := by
      rw [ofFloat_ofInt_isFinite_iff, ← Int.cast_lt (R := ℚ), Int.cast_abs, Int.cast_pow,
        Int.cast_ofNat, ← nearest]
      exact bounded
    refine ⟨converts, ?_⟩
    by_cases none : n = 0
    · rw [zero none, none]
      rfl
    · refine eq_of_doubleValue converts finite (by rw [doubleValue_ofInt converts, nearest]) ?_
      rw [doubleValue_ofInt converts]
      exact_mod_cast mt nearestWhole_eq_zero_iff.mp none
  · rintro ⟨finite, rfl⟩
    exact ⟨finite, doubleValue_ofInt finite, fun zero => zero ▸ rfl⟩

end Binary

end Decimal

end InteriorPoint
