import InteriorPoint.Method.State
import InteriorPoint.Proofs.VectorSums

/-! The ratio test and the lengths cut from it. A length that takes at most a share of the way to
the boundary leaves the rest of every entry, whatever the direction is. The boundary is where the
test says it is: no move beyond it keeps every entry from turning negative.
-/

namespace InteriorPoint

variable {α : Type} [Field α] [LinearOrder α] [IsStrictOrderedRing α] {n : Nat}

section Ratio

omit [IsStrictOrderedRing α]

variable {v d : Vector α n}

theorem mem_blockingRatios {r : α}
    : r ∈ blockingRatios v d ↔ ∃ i, 0 < d.get i ∧ v.get i / d.get i = r := by
  simp [blockingRatios, List.mem_filterMap]

/-- No length limits a move that makes no entry smaller, and only such a move is not limited. -/
theorem minRatio?_eq_none_iff
    : minRatio? v d = none ↔ ∀ i, d.get i ≤ 0 := by
  have none_iff : minRatio? v d = none ↔ blockingRatios v d = [] := by
    unfold minRatio?
    split <;> simp [*]
  rw [none_iff, List.eq_nil_iff_forall_not_mem]
  constructor
  · intro empty i
    by_contra positive
    exact empty _ (mem_blockingRatios.mpr ⟨i, not_le.mp positive, rfl⟩)
  · intro nonpositive r member
    obtain ⟨i, positive, -⟩ := mem_blockingRatios.mp member
    exact absurd positive (not_lt.mpr (nonpositive i))

/-- A limit is the least of the blocking quotients. -/
theorem minRatio?_isLeast {r : α} (h : minRatio? v d = some r)
    : IsLeast {q | ∃ i, 0 < d.get i ∧ v.get i / d.get i = q} r := by
  have quotients : {q | ∃ i, 0 < d.get i ∧ v.get i / d.get i = q}
      = {q | q ∈ blockingRatios v d} := by
    ext q
    exact mem_blockingRatios.symm
  unfold minRatio? at h
  split at h
  · simp at h
  · next first rest items =>
      obtain rfl := Option.some.inj h
      rw [quotients, items, lesser_eq_min]
      exact foldl_min_isLeast first rest

end Ratio

section Length

/-- A share of a ratio, cut off at one; a move without a limit has length one. -/
def cutLength (share : α) : Option α → α
  | none => 1
  | some r => min 1 (share * r)

omit [IsStrictOrderedRing α] in
/-- The affine step goes all the way to the boundary. -/
theorem unitLength_eq_cutLength (ratio : Option α)
    : unitLength ratio = cutLength 1 ratio := by
  cases ratio <;> simp [unitLength, cutLength]

omit [IsStrictOrderedRing α] in
/-- The step that is taken keeps its distance. -/
theorem shortLength_eq_cutLength (ratio : Option α)
    : shortLength ratio = cutLength stepFraction ratio := by
  cases ratio <;> simp [shortLength, cutLength]

theorem stepFraction_pos
    : (0 : α) < stepFraction := by
  unfold stepFraction
  positivity

theorem stepFraction_lt_one
    : (stepFraction : α) < 1 := by
  unfold stepFraction
  rw [div_lt_one (by positivity)]
  norm_num

/-- A length between zero and one along `-d` that takes at most a share of every entry. -/
structure IsSafeLength (share : α) (v d : Vector α n) (length : α) : Prop where
  nonneg : 0 ≤ length
  le_one : length ≤ 1
  taken_le : ∀ i, length * d.get i ≤ share * v.get i

variable {share : α} {v d : Vector α n}

/-- A length cut from the ratio test is safe for every direction. Entries with a positive move
are bounded by their quotient, the others by the signs.
-/
theorem cutLength_isSafe (hshare : 0 ≤ share) (hv : 0 ≤ v.get)
    : IsSafeLength share v d (cutLength share (minRatio? v d)) := by
  cases h : minRatio? v d with
  | none =>
      have nonpositive := minRatio?_eq_none_iff.mp h
      refine ⟨zero_le_one, le_rfl, fun i => ?_⟩
      calc 1 * d.get i ≤ 0 := by simpa using nonpositive i
        _ ≤ share * v.get i := mul_nonneg hshare (hv i)
  | some r =>
      obtain ⟨⟨k, blocking, attained⟩, least⟩ := minRatio?_isLeast h
      have ratio_nonneg : 0 ≤ r := attained ▸ div_nonneg (hv k) blocking.le
      have length_nonneg : 0 ≤ cutLength share (some r) :=
        le_min zero_le_one (mul_nonneg hshare ratio_nonneg)
      refine ⟨length_nonneg, min_le_left .., fun i => ?_⟩
      rcases lt_or_ge 0 (d.get i) with positive | nonpositive
      · have below : r * d.get i ≤ v.get i := by
          rw [← le_div_iff₀ positive]
          exact least ⟨i, positive, rfl⟩
        calc cutLength share (some r) * d.get i
            ≤ share * r * d.get i := by
              exact mul_le_mul_of_nonneg_right (min_le_right ..) positive.le
          _ = share * (r * d.get i) := mul_assoc ..
          _ ≤ share * v.get i := mul_le_mul_of_nonneg_left below hshare
      · calc cutLength share (some r) * d.get i ≤ 0 :=
              mul_nonpos_of_nonneg_of_nonpos length_nonneg nonpositive
          _ ≤ share * v.get i := mul_nonneg hshare (hv i)

/-- From a vector with positive entries every direction allows a positive length. -/
theorem cutLength_pos (hshare : 0 < share) (hv : ∀ i, 0 < v.get i)
    : 0 < cutLength share (minRatio? v d) := by
  cases h : minRatio? v d with
  | none => exact zero_lt_one
  | some r =>
      obtain ⟨⟨k, blocking, attained⟩, -⟩ := minRatio?_isLeast h
      have ratio_pos : 0 < r := attained ▸ div_pos (hv k) blocking
      exact lt_min zero_lt_one (mul_pos hshare ratio_pos)

/-- A safe move leaves the rest of every entry. -/
theorem IsSafeLength.rest_le_descend {length : α} (safe : IsSafeLength share v d length)
    : (1 - share) • v.get ≤ (descend v length d).get := by
  intro i
  have taken := safe.taken_le i
  rw [get_descend]
  simp only [Pi.smul_apply, Pi.sub_apply, smul_eq_mul]
  linarith

end Length

section Limit

variable {v d : Vector α n}

/-- Only the entries that a move makes smaller can turn negative, each of them once the length is
beyond its quotient.
-/
theorem descend_nonneg_iff {length : α} (hv : 0 ≤ v.get) (hlength : 0 ≤ length)
    : 0 ≤ (descend v length d).get ↔ ∀ i, 0 < d.get i → length ≤ v.get i / d.get i := by
  have entry (i : Fin n) : 0 ≤ (descend v length d).get i ↔ length * d.get i ≤ v.get i := by
    rw [get_descend]
    exact sub_nonneg
  constructor
  · intro nonneg i positive
    exact (le_div_iff₀ positive).mpr ((entry i).mp (nonneg i))
  · intro within i
    refine (entry i).mpr ?_
    rcases lt_or_ge 0 (d.get i) with positive | nonpositive
    · exact (le_div_iff₀ positive).mp (within i positive)
    · calc length * d.get i ≤ 0 := mul_nonpos_of_nonneg_of_nonpos hlength nonpositive
        _ ≤ v.get i := hv i

/-- A limit on the lengths of moves along `-d` that is neither too great nor needlessly small. There
is one unless no entry gets smaller; within the limit, and only there, no entry turns negative; and
at the limit some entry vanishes.
-/
structure IsExactLimit (v d : Vector α n) (limit : Option α) : Prop where
  none_iff : limit = none ↔ ∀ i, d.get i ≤ 0
  stays_iff
    : ∀ length, 0 ≤ length → (0 ≤ (descend v length d).get ↔ ∀ r ∈ limit, length ≤ r)
  vanishes : ∀ r ∈ limit, ∃ i, (descend v r d).get i = 0

/-- The ratio test gives the exact limit, whatever the direction is, for every vector without
negative entries.
-/
theorem ratioTest_isExact (hv : 0 ≤ v.get)
    : IsExactLimit v d (minRatio? v d) where
  none_iff := minRatio?_eq_none_iff
  stays_iff := by
    intro length hlength
    rw [descend_nonneg_iff hv hlength]
    cases limit : minRatio? v d with
    | none =>
        have nonpositive := minRatio?_eq_none_iff.mp limit
        exact iff_of_true (fun i positive => absurd positive (nonpositive i).not_gt) (by simp)
    | some r =>
        obtain ⟨⟨k, blocking, attained⟩, least⟩ := minRatio?_isLeast limit
        constructor
        · rintro within _ ⟨⟩
          exact attained ▸ within k blocking
        · intro within i positive
          exact (within r rfl).trans (least ⟨i, positive, rfl⟩)
  vanishes := by
    intro r limit
    obtain ⟨⟨k, blocking, attained⟩, -⟩ := minRatio?_isLeast limit
    refine ⟨k, ?_⟩
    rw [get_descend, ← attained]
    exact sub_eq_zero.mpr (div_mul_cancel₀ _ blocking.ne').symm

/-- An entry that is zero and grows blocks nothing; of the other two the first is the first to
vanish.
-/
theorem ratioTest_isExact_blocked
    : 0 ≤ (#v[0, 3, 8] : Vector ℚ 3).get
      ∧ minRatio? (#v[0, 3, 8] : Vector ℚ 3) #v[-1, 2, 4] = some (3 / 2)
      ∧ IsExactLimit (#v[0, 3, 8] : Vector ℚ 3) #v[-1, 2, 4] (some (3 / 2)) := by
  have hv : 0 ≤ (#v[0, 3, 8] : Vector ℚ 3).get := by
    rw [Pi.le_def]
    decide +kernel
  have limit : minRatio? (#v[0, 3, 8] : Vector ℚ 3) #v[-1, 2, 4] = some (3 / 2) := by
    decide +kernel
  exact ⟨hv, limit, limit ▸ ratioTest_isExact hv⟩

end Limit

end InteriorPoint
