import InteriorPoint.Proofs.OrderedScalar
import InteriorPoint.Rounded.Basic

/-! Comparisons where some values are undefined. The defined ones are in a linear order, and an
undefined one compares with nothing. Doubles and rounded numbers compare in this way, so the
extremes that keep the earlier of two values overlook an undefined value unless it comes first.
-/

namespace InteriorPoint

/-- The comparisons are those of a linear order, except that undefined values fail all of them. -/
class DefinedOrder (α : Type) [LT α] [LE α] : Prop where
  defined_of_le : ∀ {x y : α}, x ≤ y → x ≤ x ∧ y ≤ y
  le_trans : ∀ {x y z : α}, x ≤ y → y ≤ z → x ≤ z
  le_total : ∀ {x y : α}, x ≤ x → y ≤ y → x ≤ y ∨ y ≤ x
  lt_iff : ∀ {x y : α}, x < y ↔ x ≤ x ∧ y ≤ y ∧ ¬y ≤ x

-----------------------------------------------------------------------------------------
-- What the guarded comparisons amount to
-----------------------------------------------------------------------------------------

section Laws

variable {α : Type} [LT α] [LE α] [DefinedOrder α] {x y z : α}

namespace DefinedOrder

theorem le_of_lt (h : x < y) : x ≤ y := by
  obtain ⟨hx, hy, not_le⟩ := lt_iff.mp h
  exact (le_total hx hy).resolve_right not_le

theorem not_lt_iff_le (hx : x ≤ x) (hy : y ≤ y) : ¬x < y ↔ y ≤ x := by
  rw [lt_iff]
  tauto

theorem lt_of_le_of_lt (first : x ≤ y) (second : y < z) : x < z := by
  obtain ⟨-, hz, not_le⟩ := lt_iff.mp second
  exact lt_iff.mpr ⟨(defined_of_le first).1, hz, fun h => not_le (le_trans h first)⟩

end DefinedOrder

open DefinedOrder

section Undefined

variable [DecidableLE α]

omit [LT α] [DefinedOrder α] in
theorem isUndefined_iff : isUndefined x ↔ ¬x ≤ x := by
  simp [isUndefined]

theorem not_isUndefined_of_le (h : x ≤ y) : ¬isUndefined x ∧ ¬isUndefined y := by
  rw [isUndefined_iff, isUndefined_iff, not_not, not_not]
  exact defined_of_le h

/-- A value is refused for not being below a bound unless it is undefined. -/
theorem not_le_iff_lt_or_isUndefined (hx : x ≤ x) : ¬x ≤ y ↔ y < x ∨ isUndefined y := by
  rw [isUndefined_iff, lt_iff]
  constructor
  · intro above
    by_cases hy : y ≤ y
    · exact .inl ⟨hy, hx, above⟩
    · exact .inr hy
  · rintro (⟨-, -, above⟩ | undefined)
    · exact above
    · exact fun h => undefined (defined_of_le h).2

end Undefined

/-- A property of defined values that every smaller value has as well. -/
structure IsCut (P : α → Prop) : Prop where
  defined : ∀ {x}, P x → x ≤ x
  down : ∀ {x y}, x ≤ y → P y → P x

theorem isCut_lt (z : α) : IsCut fun x => x < z where
  defined below := (lt_iff.mp below).1
  down := lt_of_le_of_lt

theorem isCut_le (z : α) : IsCut fun x => x ≤ z where
  defined below := (defined_of_le below).1
  down := le_trans

variable [DecidableLT α] [DecidableLE α] {P : α → Prop}

/-- The greater of two values, where the earlier one is kept unless the later one compares as
greater, is below a bound if both are, or if the earlier one is and the later one is undefined.
-/
theorem IsCut.firstMax_iff (cut : IsCut P)
    : P (firstMax x y) ↔ P x ∧ (P y ∨ isUndefined y) := by
  rw [firstMax, isUndefined_iff]
  split
  · next less =>
      have below : x ≤ y := le_of_lt less
      constructor
      · intro hy
        exact ⟨cut.down below hy, .inl hy⟩
      · rintro ⟨-, hy | undefined⟩
        · exact hy
        · exact absurd (defined_of_le below).2 undefined
  · next not_less =>
      refine ⟨fun hx => ⟨hx, ?_⟩, fun h => h.1⟩
      by_cases hy : y ≤ y
      · exact .inl (cut.down ((not_lt_iff_le (cut.defined hx) hy).mp not_less) hx)
      · exact .inr hy

/-- Of several values the first one counts always, and a later one unless it is undefined; by
induction on those after the first.
-/
theorem IsCut.foldl_firstMax_iff (cut : IsCut P) (first : α) (rest : List α)
    : P (rest.foldl firstMax first) ↔ P first ∧ ∀ x ∈ rest, P x ∨ isUndefined x := by
  induction rest generalizing first with
  | nil => simp
  | cons x rest ih =>
      rw [List.foldl_cons, ih, cut.firstMax_iff, List.forall_mem_cons]
      exact and_assoc

end Laws

-----------------------------------------------------------------------------------------
-- Arithmetics that compare in this way
-----------------------------------------------------------------------------------------

section Instances

/-- Comparisons by a rank that undefined values do not have. -/
theorem definedOrder_of_rank {α κ : Type} [LT α] [LE α] [LinearOrder κ] (rank : α → Option κ)
    (lt_iff : ∀ x y, x < y ↔ ∃ a ∈ rank x, ∃ b ∈ rank y, a < b)
    (le_iff : ∀ x y, x ≤ y ↔ ∃ a ∈ rank x, ∃ b ∈ rank y, a ≤ b)
    : DefinedOrder α := by
  have defined (x : α) : x ≤ x ↔ ∃ a, a ∈ rank x := by
    rw [le_iff]
    constructor
    · rintro ⟨a, ranked, -⟩
      exact ⟨a, ranked⟩
    · rintro ⟨a, ranked⟩
      exact ⟨a, ranked, a, ranked, le_rfl⟩
  constructor
  · intro x y h
    obtain ⟨a, first, b, second, -⟩ := (le_iff x y).mp h
    exact ⟨(defined x).mpr ⟨a, first⟩, (defined y).mpr ⟨b, second⟩⟩
  · intro x y z h h'
    obtain ⟨a, first, b, second, below⟩ := (le_iff x y).mp h
    obtain ⟨b', same, c, third, above⟩ := (le_iff y z).mp h'
    obtain rfl := Option.mem_unique second same
    exact (le_iff x z).mpr ⟨a, first, c, third, below.trans above⟩
  · intro x y hx hy
    obtain ⟨a, first⟩ := (defined x).mp hx
    obtain ⟨b, second⟩ := (defined y).mp hy
    rcases le_total a b with below | above
    · exact .inl ((le_iff x y).mpr ⟨a, first, b, second, below⟩)
    · exact .inr ((le_iff y x).mpr ⟨b, second, a, first, above⟩)
  · intro x y
    rw [lt_iff, defined, defined, le_iff]
    constructor
    · rintro ⟨a, first, b, second, less⟩
      refine ⟨⟨a, first⟩, ⟨b, second⟩, ?_⟩
      rintro ⟨b', second', a', first', above⟩
      obtain rfl := Option.mem_unique first first'
      obtain rfl := Option.mem_unique second second'
      exact less.not_ge above
    · rintro ⟨⟨a, first⟩, ⟨b, second⟩, not_above⟩
      refine ⟨a, first, b, second, not_le.mp fun above => ?_⟩
      exact not_above ⟨b, second, a, first, above⟩

/-- The order the other way round. -/
instance definedOrderDual {α : Type} [LT α] [LE α] [DefinedOrder α] : DefinedOrder αᵒᵈ where
  defined_of_le {x y} h := (DefinedOrder.defined_of_le (x := y.ofDual) (y := x.ofDual) h).symm
  le_trans {x y z} h h' :=
    DefinedOrder.le_trans (x := z.ofDual) (y := y.ofDual) (z := x.ofDual) h' h
  le_total {x y} hx hy := DefinedOrder.le_total (x := y.ofDual) (y := x.ofDual) hy hx
  lt_iff {x y} := (DefinedOrder.lt_iff (x := y.ofDual) (y := x.ofDual)).trans and_left_comm

/-- Without undefined values the order is linear. -/
instance definedOrderLinear {α : Type} [LinearOrder α] : DefinedOrder α :=
  definedOrder_of_rank some (by simp) (by simp)

namespace Rounded

variable {bits : Nat}

/-- Infinite values stand below and above all the others. -/
def rank : Rounded bits → Option (ℤ ×ₗ ℚ)
  | undefined => none
  | infinite true => some (toLex (-1, 0))
  | infinite false => some (toLex (1, 0))
  | finite x => some (toLex (0, x.toRat))

theorem below_iff (x y : Rounded bits)
    : below x y ↔ ∃ a ∈ rank x, ∃ b ∈ rank y, a < b := by
  have blt_iff (x y : Dyadic) : x.blt y ↔ x.toRat < y.toRat := Dyadic.toRat_lt_toRat_iff.symm
  rcases x with _ | (_ | _) | x <;> rcases y with _ | (_ | _) | y <;>
    simp [below, rank, Prod.Lex.toLex_lt_toLex, blt_iff]

theorem atMost_iff (x y : Rounded bits)
    : atMost x y ↔ ∃ a ∈ rank x, ∃ b ∈ rank y, a ≤ b := by
  have le_iff (x y : Dyadic) : y.blt x = false ↔ x.toRat ≤ y.toRat := by
    rw [Dyadic.toRat_le_toRat_iff, ← Dyadic.not_le, Bool.eq_false_iff]
    rfl
  rcases x with _ | (_ | _) | x <;> rcases y with _ | (_ | _) | y <;>
    simp [atMost, below, rank, Prod.Lex.toLex_le_toLex, le_iff]

end Rounded

namespace Decimal.Binary

open Float.Model Float.Model.UnpackedFloat

/-- The sign comes first, then exponent and mantissa, which count the other way round below zero. -/
def rank : UnpackedFloat → Option (ℤ ×ₗ ℤ ×ₗ ℤ)
  | .notANumber => none
  | .infinity .negative => some (toLex (-2, toLex (0, 0)))
  | .finite .negative mantissa exponent _ => some (toLex (-1, toLex (-exponent, -mantissa)))
  | .zero _ => some (toLex (0, toLex (0, 0)))
  | .finite .positive mantissa exponent _ => some (toLex (1, toLex (exponent, mantissa)))
  | .infinity .positive => some (toLex (2, toLex (0, 0)))

theorem compare_eq (x y : UnpackedFloat)
    : x.compare y = (rank x).bind fun a => (rank y).map fun b => compare a b := by
  have negated (k l : ℤ) : compare (-k) (-l) = compare l k := by
    simp [compare, compareOfLessAndEq, eq_comm]
  have whole (k l : ℕ) : compare (k : ℤ) (l : ℤ) = compare k l := by
    simp [compare, compareOfLessAndEq]
  rcases x with (_ | _) | _ | _ | ⟨_ | _, m, e, _⟩ <;>
    rcases y with (_ | _) | _ | _ | ⟨_ | _, m', e', _⟩
  case finite.negative.finite.negative =>
    simp [UnpackedFloat.compare, rank, Prod.Lex.compare_def, compareLex, compareOn,
      Ordering.swap_then, Int.compare_swap, Nat.compare_swap, negated, whole]
  case finite.positive.finite.positive =>
    simp [UnpackedFloat.compare, rank, Prod.Lex.compare_def, compareLex, compareOn, whole]
  all_goals rfl

theorem lt_iff_rank (x y : Float)
    : x < y ↔ ∃ a ∈ rank x.toModel.unpack, ∃ b ∈ rank y.toModel.unpack, a < b := by
  have unfolded : x < y ↔ x.toModel.unpack.compare y.toModel.unpack = some .lt := by
    change decide (x.toModel.unpack.lt y.toModel.unpack = true) = true ↔ _
    rw [decide_eq_true_iff, UnpackedFloat.lt, beq_iff_eq]
  rw [unfolded, compare_eq]
  cases rank x.toModel.unpack with
  | none => simp
  | some a =>
      cases rank y.toModel.unpack with
      | none => simp
      | some b => simpa using compare_lt_iff_lt

theorem le_iff_rank (x y : Float)
    : x ≤ y ↔ ∃ a ∈ rank x.toModel.unpack, ∃ b ∈ rank y.toModel.unpack, a ≤ b := by
  have unfolded : x ≤ y ↔ (x.toModel.unpack.compare y.toModel.unpack).any (·.isLE) := by
    change decide (x.toModel.unpack.le y.toModel.unpack = true) = true ↔ _
    rw [decide_eq_true_iff, UnpackedFloat.le]
  rw [unfolded, compare_eq]
  cases rank x.toModel.unpack with
  | none => simp
  | some a =>
      cases rank y.toModel.unpack with
      | none => simp
      | some b =>
          have at_most : (compare a b).isLE ↔ a ≤ b := by
            rw [← Ordering.ne_gt_iff_isLE, compare_gt_iff_gt, not_lt]
          simpa using at_most

end Decimal.Binary

instance definedOrderRounded {bits : Nat} : DefinedOrder (Rounded bits) :=
  definedOrder_of_rank Rounded.rank Rounded.below_iff Rounded.atMost_iff

instance definedOrderFloat : DefinedOrder Float :=
  definedOrder_of_rank (fun x => Decimal.Binary.rank x.toModel.unpack)
    Decimal.Binary.lt_iff_rank Decimal.Binary.le_iff_rank

end Instances

end InteriorPoint
