import InteriorPoint.Method.Start
import InteriorPoint.Proofs.DoubleSigns
import InteriorPoint.Proofs.VectorSums

/-! The divisors in the starting point. In the arithmetic of doubles a raised vector has no negative
entry, though the shift and every entry are rounded, so two raised vectors whose inner product is
positive both have a total that is not zero. Neither division of the balancing is one by zero.
-/

namespace InteriorPoint

open DefinedOrder Decimal.Binary

-----------------------------------------------------------------------------------------
-- Signs of doubles
-----------------------------------------------------------------------------------------

section Signs

variable {x y : Float}

theorem pos_of_not_le_zero (defined : x ≤ x) (h : ¬x ≤ 0) : 0 < x :=
  lt_iff.mpr ⟨zero_defined, defined, h⟩

theorem doubleValue_add_pos_iff (defined : x + y ≤ x + y)
    : 0 < x + y ↔ 0 < doubleValue x + doubleValue y := by
  rw [← doubleValue_pos_iff, ← sign_eq_one_iff, ← sign_eq_one_iff, sign_doubleValue_add defined]

/-- A sum is negative only if one of the summands is. -/
theorem not_add_lt_zero (hx : ¬x < 0) (hy : ¬y < 0) : ¬x + y < 0 := by
  intro negative
  have sign := sign_doubleValue_add (lt_iff.mp negative).1
  have below : doubleValue (x + y) < 0 := doubleValue_neg_iff.mpr negative
  rw [sign_neg below, eq_comm, sign_eq_neg_one_iff] at sign
  exact (add_nonneg (doubleValue_nonneg_iff.mpr hx) (doubleValue_nonneg_iff.mpr hy)).not_gt sign

/-- Summands that are not negative do not cancel. -/
theorem not_add_le_zero (hx : ¬x < 0) (hy : ¬y < 0) (nonzero : ¬x ≤ 0 ∨ ¬y ≤ 0)
    : ¬x + y ≤ 0 := by
  intro below
  have defined := (defined_of_le below).1
  obtain ⟨first, second⟩ := defined_of_add defined
  have positive : 0 < doubleValue x + doubleValue y := by
    rcases nonzero with above | above
    · have positive := doubleValue_pos_iff.mpr (pos_of_not_le_zero first above)
      exact add_pos_of_pos_of_nonneg positive (doubleValue_nonneg_iff.mpr hy)
    · have positive := doubleValue_pos_iff.mpr (pos_of_not_le_zero second above)
      exact add_pos_of_nonneg_of_pos (doubleValue_nonneg_iff.mpr hx) positive
  exact (lt_iff.mp ((doubleValue_add_pos_iff defined).mpr positive)).2.2 below

theorem pos_or_pos_of_add_pos (h : 0 < x + y) : 0 < x ∨ 0 < y := by
  rw [doubleValue_add_pos_iff (lt_iff.mp h).2.1] at h
  rw [← doubleValue_pos_iff, ← doubleValue_pos_iff]
  by_contra! small
  linarith

theorem pos_of_mul_pos (hx : ¬x < 0) (hy : ¬y < 0) (h : 0 < x * y) : 0 < x ∧ 0 < y := by
  have sign := sign_doubleValue_mul (lt_iff.mp h).2.1
  rw [sign_pos (doubleValue_pos_iff.mpr h), eq_comm (b := 0)] at sign
  have positive : 0 < doubleValue x * doubleValue y :=
    sign_eq_one_iff.mp (sign.resolve_left (by decide)).symm
  rw [← doubleValue_pos_iff, ← doubleValue_pos_iff]
  exact ⟨pos_of_mul_pos_left positive (doubleValue_nonneg_iff.mpr hy),
    pos_of_mul_pos_right positive (doubleValue_nonneg_iff.mpr hx)⟩

end Signs

-----------------------------------------------------------------------------------------
-- Totals
-----------------------------------------------------------------------------------------

section Totals

variable {n : Nat}

/-- Adding numbers that are not negative keeps a sum from becoming zero once one of them is not; by
induction on those that are added.
-/
theorem not_foldl_add_le_zero (first : Float) (rest : List Float) (hfirst : ¬first < 0)
    (hrest : ∀ x ∈ rest, ¬x < 0) (nonzero : ¬first ≤ 0 ∨ ∃ x ∈ rest, ¬x ≤ 0)
    : ¬rest.foldl (· + ·) first ≤ 0 := by
  induction rest generalizing first with
  | nil => simpa using nonzero
  | cons head rest ih =>
      obtain ⟨hhead, hrest⟩ := List.forall_mem_cons.mp hrest
      refine ih (first + head) (not_add_lt_zero hfirst hhead) hrest ?_
      rw [List.exists_mem_cons_iff, ← or_assoc] at nonzero
      exact nonzero.imp_left (not_add_le_zero hfirst hhead)

theorem exists_pos_of_foldl_add_pos (first : Float) (rest : List Float)
    (h : 0 < rest.foldl (· + ·) first)
    : 0 < first ∨ ∃ x ∈ rest, 0 < x := by
  induction rest generalizing first with
  | nil => exact .inl h
  | cons head rest ih =>
      rw [List.exists_mem_cons_iff, ← or_assoc]
      exact (ih (first + head) h).imp_left pos_or_pos_of_add_pos

theorem mem_toList_iff (x : Vector Float n) (a : Float) : a ∈ x.toList ↔ ∃ i, x.get i = a := by
  rw [toList_eq_ofFn, List.mem_ofFn', Set.mem_range]

/-- A total of entries that are not negative is zero only if all of them are. -/
theorem isZero_total_eq_false {x : Vector Float n} (nonneg : ∀ i, ¬x.get i < 0) {i : Fin n}
    (positive : 0 < x.get i)
    : isZero (total x) = false := by
  have above : ¬total x ≤ 0 := by
    rw [total, ← Vector.foldl_toList]
    refine not_foldl_add_le_zero 0 x.toList (fun h => (lt_iff.mp h).2.2 zero_defined) ?_ ?_
    · intro a member
      obtain ⟨j, rfl⟩ := (mem_toList_iff x a).mp member
      exact nonneg j
    · exact .inr ⟨_, (mem_toList_iff x _).mpr ⟨i, rfl⟩, (lt_iff.mp positive).2.2⟩
  simp [isZero, above]

theorem exists_pos_of_total_pos {x : Vector Float n} (h : 0 < total x) : ∃ i, 0 < x.get i := by
  rw [total, ← Vector.foldl_toList] at h
  rcases exists_pos_of_foldl_add_pos 0 x.toList h with absurd_pos | ⟨a, member, positive⟩
  · exact absurd zero_defined (lt_iff.mp absurd_pos).2.2
  · obtain ⟨i, rfl⟩ := (mem_toList_iff x a).mp member
    exact ⟨i, positive⟩

end Totals

-----------------------------------------------------------------------------------------
-- The least entry
-----------------------------------------------------------------------------------------

section Least

variable {α : Type} [LT α] [LE α] [DefinedOrder α] [DecidableLT α] [DecidableLE α] {x y : α}

theorem lesser_le (defined : lesser x y ≤ lesser x y) : lesser x y ≤ x ∧ lesser x y ≤ y := by
  rw [lesser] at defined ⊢
  split_ifs at defined ⊢ with hx hy
  · exact absurd defined (isUndefined_iff.mp hx)
  · exact absurd defined (isUndefined_iff.mp hy)
  · rw [isUndefined_iff, not_not] at hx hy
    rw [firstMin]
    split
    · next less => exact ⟨le_of_lt less, hy⟩
    · next not_less => exact ⟨hx, (not_lt_iff_le hy hx).mp not_less⟩

/-- The least of several values is at most each of them, or it is undefined. -/
theorem foldl_lesser_le (first : α) (rest : List α)
    (defined : rest.foldl lesser first ≤ rest.foldl lesser first)
    : ∀ a ∈ first :: rest, rest.foldl lesser first ≤ a := by
  induction rest generalizing first with
  | nil => simpa using defined
  | cons head rest ih =>
      have below := List.forall_mem_cons.mp (ih (lesser first head) defined)
      obtain ⟨hfirst, hhead⟩ := lesser_le (defined_of_le below.1).2
      rw [List.forall_mem_cons, List.forall_mem_cons]
      exact ⟨le_trans below.1 hfirst, le_trans below.1 hhead, below.2⟩

theorem least_le_get [Zero α] {n : Nat} {x : Vector α n} (defined : least x ≤ least x) (i : Fin n)
    : least x ≤ x.get i := by
  have member : x.get i ∈ x.toList := by
    rw [toList_eq_ofFn, List.mem_ofFn]
    exact ⟨i, rfl⟩
  rw [least] at defined ⊢
  generalize x.toList = items at defined member ⊢
  cases items with
  | nil => cases member
  | cons first rest => exact foldl_lesser_le first rest defined _ member

end Least

-----------------------------------------------------------------------------------------
-- Raised vectors
-----------------------------------------------------------------------------------------

section Raised

variable {n : Nat}

theorem doubleValue_neg_startShift : doubleValue (-startShift) = -(3 / 2) := by
  have parts
      : rank (-startShift : Float).toModel.unpack
        = some (toLex (-1, toLex (52, -6755399441055744))) := by
    decide +kernel
  have same := value_eq_of_rank_eq
    (v := .finite .negative 6755399441055744 (-52) (by decide)) parts rfl
  rw [doubleValue, same, value]
  norm_num

/-- A shift that is defined makes up for the least entry, however it is rounded. -/
theorem raise_covers {x : Vector Float n} (defined : raise x ≤ raise x)
    : least x ≤ least x ∧ 0 ≤ doubleValue (least x) + doubleValue (raise x) := by
  rw [raise, firstMax] at defined ⊢
  split_ifs at defined ⊢ with negative
  · -- The least entry is positive, and the shift is zero.
    have product := (lt_iff.mp negative).1
    have sign := sign_doubleValue_mul product
    have below : doubleValue (-startShift * least x) < 0 :=
      doubleValue_neg_iff.mpr negative
    rw [sign_neg below, doubleValue_neg_startShift, eq_comm (b := 0)] at sign
    have signs := sign_eq_neg_one_iff.mp (sign.resolve_left (by decide)).symm
    refine ⟨(defined_of_mul product).2, ?_⟩
    rw [doubleValue_zero]
    linarith
  · refine ⟨(defined_of_mul defined).2, ?_⟩
    have great : 1 ≤ |doubleValue (-startShift)| := by
      rw [doubleValue_neg_startShift]
      norm_num
    have size := abs_doubleValue_le_mul defined great
    rw [abs_of_nonneg (doubleValue_nonneg_iff.mpr negative)] at size
    linarith [neg_abs_le (doubleValue (least x))]

/-- No entry of a raised vector is negative. -/
theorem not_shift_raise_lt_zero (x : Vector Float n) (i : Fin n)
    : ¬(shift x (raise x)).get i < 0 := by
  rw [get_shift]
  intro negative
  have defined := (lt_iff.mp negative).1
  obtain ⟨hx, hraise⟩ := defined_of_add defined
  obtain ⟨hleast, covers⟩ := raise_covers hraise
  have below : doubleValue (least x) ≤ doubleValue (x.get i) :=
    (le_iff_doubleValue hleast hx).mp (least_le_get hleast i)
  have sign := sign_doubleValue_add defined
  have sum : doubleValue (x.get i + raise x) < 0 :=
    doubleValue_neg_iff.mpr negative
  rw [sign_neg sum, eq_comm, sign_eq_neg_one_iff] at sign
  linarith

/-- Where the balancing divides, it does not divide by zero. -/
theorem balance_divisors_ne_zero (x s : Vector Float n)
    (balances : 0 < dot (shift x (raise x)) (shift s (raise s)))
    : isZero (total (shift s (raise s))) = false ∧ isZero (total (shift x (raise x))) = false := by
  obtain ⟨i, product⟩ := exists_pos_of_total_pos balances
  change 0 < (mulEntries (shift x (raise x)) (shift s (raise s))).get i at product
  rw [get_mulEntries] at product
  obtain ⟨hx, hs⟩ :=
    pos_of_mul_pos (not_shift_raise_lt_zero x i) (not_shift_raise_lt_zero s i) product
  exact ⟨isZero_total_eq_false (not_shift_raise_lt_zero s) hs,
    isZero_total_eq_false (not_shift_raise_lt_zero x) hx⟩

end Raised

end InteriorPoint
