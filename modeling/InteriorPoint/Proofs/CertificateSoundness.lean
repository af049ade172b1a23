import InteriorPoint.Certificate.Doubles
import InteriorPoint.Proofs.DoubleValue
import InteriorPoint.Proofs.VectorSums

/-! What a passed certificate says about a point in doubles. Its extremes overlook undefined parts
after the first one. An undefined variable shows in the gap; an undefined residual or slack need
not show anywhere.
-/

namespace InteriorPoint

-----------------------------------------------------------------------------------------
-- Extremes of a vector
-----------------------------------------------------------------------------------------

section Extremes

variable {α : Type} [Zero α] [LT α] [LE α] [DecidableLT α] [DecidableLE α] [DefinedOrder α]
  {n : Nat} {bound : α}

/-- Apart from the first one the greatest value overlooks those that are undefined. -/
theorem greatest_le_iff (zero : 0 ≤ bound) (v : Vector α n)
    : Certificate.greatest v.toList ≤ bound
      ↔ ∀ i : Fin n, v.get i ≤ bound ∨ (0 < i.val ∧ isUndefined (v.get i)) := by
  rw [toList_eq_ofFn]
  cases n with
  | zero => simpa [Certificate.greatest, foldFirst] using zero
  | succ n =>
      rw [List.ofFn_succ, Certificate.greatest, foldFirst, (isCut_le bound).foldl_firstMax_iff,
        List.forall_mem_ofFn_iff, Fin.forall_fin_succ]
      simp

theorem le_leastOf_iff (zero : bound ≤ 0) (v : Vector α n)
    : bound ≤ Certificate.leastOf v.toList
      ↔ ∀ i : Fin n, bound ≤ v.get i ∨ (0 < i.val ∧ isUndefined (v.get i)) :=
  greatest_le_iff (α := αᵒᵈ) zero v

end Extremes

-----------------------------------------------------------------------------------------
-- Parts that are handed over
-----------------------------------------------------------------------------------------

section Parts

variable {m n : Nat}

/-- The values of a vector as a list that is handed over. -/
def Nested.ofVector {α : Type} (v : Vector α n) : Nested α :=
  .list (v.toList.map .number)

theorem Nested.tensors?_map_number {α : Type} (xs : List α)
    : tensors? (xs.map .number) = some (xs.map fun x => ⟨[], [x]⟩) := by
  induction xs with
  | nil => rfl
  | cons x xs ih =>
      rw [List.map_cons, tensors?, tensor?, ih]
      rfl

theorem Tensor.stack?_map {α : Type} (xs : List α)
    : stack? (xs.map fun x => ⟨[], [x]⟩) = some (line xs) := by
  cases xs with
  | nil => rfl
  | cons x xs => simp [stack?, line, List.flatMap_map]

theorem Nested.tensor_ofVector {α : Type} (v : Vector α n)
    : (ofVector v).tensor = .ok (.line v.toList) := by
  rw [tensor, ofVector, tensor?, tensors?_map_number, Option.bind_some, Tensor.stack?_map]
  rfl

/-- A source comes down to a matrix, with negative rows counted from the last one. -/
def MatrixSource.IsSourceOf (a : MatrixSource Float) (matrix : Columns Float m n) : Prop :=
  ∃ loose, a.toLoose = .ok loose ∧ loose.fromEnd.sparse? = some ⟨m, n, matrix⟩

namespace Certificate

theorem leading?_toList {α : Type} (v : Vector α n)
    : leading? n v.toList = some v := by
  simp [leading?, List.take_of_length_le, Vector.toList]

/-- Where there are rows and columns, parts of fitting lengths have a certificate in any arithmetic:
the one of the program and the point that they make up.
-/
theorem evaluateParts_ofVector {α β : Type} [Zero α] [Add α] [LE α] [DecidableLE α] [Zero β]
    [One β] [Add β] [Sub β] [Mul β] [Div β] [Neg β] [LT β] [LE β] [DecidableLT β] [DecidableLE β]
    (read : α → β) (sum : List β → β) (digits : Int) (rows : 0 < m) (cols : 0 < n)
    {p : LinearProgram α m n} {a : MatrixSource α} {loose : Loose α}
    (taken : a.toLoose = .ok loose) (inside : loose.fromEnd.sparse? = some ⟨m, n, p.matrix⟩)
    (y : Blocks α m n)
    : evaluateParts read sum digits a (.ofVector p.rightSide) (.ofVector p.cost) (.ofVector y.x)
        (.ofVector y.lam) (.ofVector y.s)
      = .ok (evaluate sum digits (p.map read) (y.map read)) := by
  have shape : loose.rows = m ∧ loose.cols = n := by
    rw [Loose.sparse?] at inside
    split at inside
    · obtain ⟨rfl, rfl, -⟩ := Sparse.mk.inj (Option.some.inj inside)
      exact ⟨rfl, rfl⟩
    · simp at inside
  simp only [evaluateParts, Nested.tensor_ofVector, taken, Except.mapError]
  -- No part is a number, and their lengths fit.
  simp only [bind, Except.bind, Tensor.line, Tensor.rank, Vector.length_toList, List.any_cons,
    List.any_nil, List.length_cons, List.length_nil, zero_add, Nat.reduceBEq, Bool.or_self,
    Bool.false_eq_true, if_false, List.headD_cons, shape, ne_eq, not_true_eq_false, or_self,
    pure, Except.pure]
  rw [inside]
  simp only [rows.ne', cols.ne', if_false, leading?_toList, ← Vector.toList_map]
  rfl

theorem ofParts_ofVector (digits : Int) (rows : 0 < m) (cols : 0 < n)
    {p : LinearProgram Float m n} {a : MatrixSource Float} (source : a.IsSourceOf p.matrix)
    (y : Blocks Float m n)
    : ofParts digits a (.ofVector p.rightSide) (.ofVector p.cost) (.ofVector y.x)
        (.ofVector y.lam) (.ofVector y.s)
      = .ok (ofDoubles digits p y) := by
  obtain ⟨loose, taken, inside⟩ := source
  exact evaluateParts_ofVector Rounded.ofFloat Rounded.sum digits rows cols taken inside y

end Certificate

end Parts

-----------------------------------------------------------------------------------------
-- Undefined terms of a sum
-----------------------------------------------------------------------------------------

namespace Rounded

variable {bits : Nat}

theorem isUndefined_iff_eq (x : Rounded bits)
    : isUndefined x ↔ x = undefined := by
  have ranked : x ≤ x ↔ _ := atMost_iff x x
  rw [isUndefined_iff, ranked]
  cases x with
  | undefined => simp [rank]
  | infinite negative => cases negative <;> simp [rank]
  | finite x => simp [rank]

theorem add_undefined (x : Rounded bits)
    : x + undefined = undefined := by
  cases x <;> rfl

theorem mul_undefined (x : Rounded bits)
    : x * undefined = undefined := by
  cases x <;> rfl

/-- A sum is undefined as soon as one of its terms is; by induction on the terms, with the sum so
far as a start.
-/
theorem sum_eq_undefined {xs : List (Rounded bits)} (h : undefined ∈ xs)
    : sum xs = undefined := by
  have general (xs : List (Rounded bits)) (start : Rounded bits)
      (h : start = undefined ∨ undefined ∈ xs)
      : xs.foldl (· + ·) start = undefined := by
    induction xs generalizing start with
    | nil => simpa using h
    | cons x xs ih =>
        refine ih _ ?_
        rcases h with rfl | h
        · exact .inl rfl
        · rcases List.mem_cons.mp h with rfl | later
          · exact .inl (add_undefined start)
          · exact .inr later
  have special : undefined ∈ specialPart xs := List.mem_filter.mpr ⟨h, rfl⟩
  rw [sum]
  cases found : specialPart xs with
  | nil => simp [found] at special
  | cons x rest =>
      rw [found] at special
      exact general rest x ((List.mem_cons.mp special).imp_left Eq.symm)

/-- The gap shows an undefined objective. -/
theorem relativeGap_undefined (dual : Rounded bits)
    : relativeGap undefined dual = undefined := by
  rfl

end Rounded

-----------------------------------------------------------------------------------------
-- What a certificate makes sure of
-----------------------------------------------------------------------------------------

namespace Certificate

open Rounded

variable {m n : Nat} (digits : Int) (p : LinearProgram Float m n) (y : Blocks Float m n)

/-- By how much each row is violated. -/
def rowViolations : Vector (Rounded (bitsFor digits)) m :=
  (subVec (products (p.map ofFloat).matrix (y.map ofFloat)).rows
    (p.map ofFloat).rightSide).map magnitude

/-- By how much each column is violated. -/
def colViolations : Vector (Rounded (bitsFor digits)) n :=
  (subVec (addVec (products (p.map ofFloat).matrix (y.map ofFloat)).cols (y.map ofFloat).s)
    (p.map ofFloat).cost).map magnitude

/-- What is asked of a point, part by part: violations and gap within a tolerance, and no negative
variable or slack.
-/
structure IsWithin (tolerance : Float) : Prop where
  rows : ∀ i, (rowViolations digits p y).get i ≤ exactly tolerance
  cols : ∀ j, (colViolations digits p y).get j ≤ exactly tolerance
  gap : (ofDoubles digits p y).relativeGap ≤ exactly tolerance
  x : ∀ j, 0 ≤ y.x.get j
  s : ∀ j, 0 ≤ y.s.get j

/-- What a certificate makes sure of: the same, except for undefined violations and slacks after
the first one.
-/
structure IsSeenWithin (tolerance : Float) : Prop where
  rows
    : ∀ i, (rowViolations digits p y).get i ≤ exactly tolerance
      ∨ (0 < i.val ∧ isUndefined ((rowViolations digits p y).get i))
  cols
    : ∀ j, (colViolations digits p y).get j ≤ exactly tolerance
      ∨ (0 < j.val ∧ isUndefined ((colViolations digits p y).get j))
  gap : (ofDoubles digits p y).relativeGap ≤ exactly tolerance
  x : ∀ j, 0 ≤ y.x.get j
  s : ∀ j, 0 ≤ y.s.get j ∨ (0 < j.val ∧ isUndefined (y.s.get j))

/-- No violation and no slack is undefined. -/
structure IsDefined : Prop where
  rows : ∀ i, ¬isUndefined ((rowViolations digits p y).get i)
  cols : ∀ j, ¬isUndefined ((colViolations digits p y).get j)
  s : ∀ j, ¬isUndefined (y.s.get j)

variable {digits p y}

theorem bitsFor_pos : 0 < bitsFor digits := by
  rw [bitsFor, precision]
  split
  · exact Nat.one_pos
  · split
    · exact lt_of_lt_of_le Nat.one_pos (le_max_left ..)
    · exact Nat.one_pos

theorem mul_mem_terms {α : Type} [Mul α] (x y : Vector α n) (j : Fin n)
    : x.get j * y.get j ∈ terms x y := by
  rw [terms, toList_eq_ofFn, List.mem_ofFn]
  exact ⟨j, congrFun (get_mulEntries x y) j⟩

/-- A gap that is within some tolerance has no undefined variable behind it. -/
theorem not_isUndefined_x_of_gap {tolerance : Rounded (bitsFor digits)}
    (gap : (ofDoubles digits p y).relativeGap ≤ tolerance) (j : Fin n)
    : ¬isUndefined (y.x.get j) := by
  intro missing
  have value : (y.x.map ofFloat).get j = (undefined : Rounded (bitsFor digits)) := by
    rw [Vector.get_map, ofFloat_eq_undefined_iff]
    exact missing
  have term := mul_mem_terms (p.cost.map (@ofFloat (bitsFor digits))) (y.x.map ofFloat) j
  rw [value, mul_undefined] at term
  have objective : (ofDoubles digits p y).primalObjective = undefined := sum_eq_undefined term
  have gap_eq : (ofDoubles digits p y).relativeGap
      = InteriorPoint.relativeGap (ofDoubles digits p y).primalObjective
        (ofDoubles digits p y).dualObjective := rfl
  rw [gap_eq, objective, relativeGap_undefined] at gap
  -- What is undefined is at most nothing, by evaluation of the comparison.
  exact Bool.false_ne_true gap

/-- The least of some doubles is not negative, up to undefined ones. -/
theorem zero_le_leastOf_iff (v : Vector Float n)
    : (0 : Rounded (bitsFor digits)) ≤ leastOf (v.map ofFloat).toList
      ↔ ∀ j : Fin n, 0 ≤ v.get j ∨ (0 < j.val ∧ isUndefined (v.get j)) := by
  refine (le_leastOf_iff rfl (v.map ofFloat)).trans (forall_congr' fun j => ?_)
  have undefined_iff
      : isUndefined (ofFloat (v.get j) : Rounded (bitsFor digits)) ↔ isUndefined (v.get j) := by
    rw [isUndefined_iff_eq, ofFloat_eq_undefined_iff]
  rw [Vector.get_map]
  exact or_congr (zero_le_ofFloat_iff bitsFor_pos _) (and_congr_right' undefined_iff)

theorem passed_iff {tolerance : Float} (positive : 0 ≤ tolerance)
    : (ofDoubles digits p y).passed (exactly tolerance)
      ↔ IsSeenWithin digits p y tolerance := by
  have bound : (0 : Rounded (bitsFor digits)) ≤ exactly tolerance :=
    (zero_le_exactly_iff tolerance).mpr positive
  have rows_eq
      : (ofDoubles digits p y).primalResidual = greatest (rowViolations digits p y).toList := by
    rw [rowViolations, Vector.toList_map]
    rfl
  have cols_eq
      : (ofDoubles digits p y).dualResidual = greatest (colViolations digits p y).toList := by
    rw [colViolations, Vector.toList_map]
    rfl
  have x : 0 ≤ (ofDoubles digits p y).xLeast ↔ _ := zero_le_leastOf_iff y.x
  have s : 0 ≤ (ofDoubles digits p y).sLeast ↔ _ := zero_le_leastOf_iff y.s
  simp only [passed, Bool.and_eq_true, decide_eq_true_iff, rows_eq, cols_eq, greatest_le_iff bound,
    x, s]
  constructor
  · rintro ⟨⟨⟨⟨hrows, hcols⟩, gap⟩, hx⟩, hs⟩
    refine ⟨hrows, hcols, gap, fun j => (hx j).resolve_right fun h => ?_, hs⟩
    exact not_isUndefined_x_of_gap gap j h.2
  · rintro ⟨hrows, hcols, gap, hx, hs⟩
    exact ⟨⟨⟨⟨hrows, hcols⟩, gap⟩, fun j => .inl (hx j)⟩, hs⟩

theorem isWithin_iff {tolerance : Float}
    : IsWithin digits p y tolerance
      ↔ IsSeenWithin digits p y tolerance ∧ IsDefined digits p y := by
  constructor
  · intro h
    constructor
    · exact {
        rows := fun i => .inl (h.rows i)
        cols := fun j => .inl (h.cols j)
        gap := h.gap
        x := h.x
        s := fun j => .inl (h.s j)
      }
    · exact {
        rows := fun i => (not_isUndefined_of_le (h.rows i)).1
        cols := fun j => (not_isUndefined_of_le (h.cols j)).1
        s := fun j => (not_isUndefined_of_le (h.s j)).2
      }
  · rintro ⟨seen, defined⟩
    exact {
      rows := fun i => (seen.rows i).resolve_right fun h => defined.rows i h.2
      cols := fun j => (seen.cols j).resolve_right fun h => defined.cols j h.2
      gap := seen.gap
      x := seen.x
      s := fun j => (seen.s j).resolve_right fun h => defined.s j h.2
    }

/-- Parts of fitting lengths have a certificate. If it passes, it makes sure of everything up to
undefined violations and slacks after the first one, so it passes wrongly exactly for a point that
has one of these.
-/
theorem isWithin_iff_passed_of_isDefined {tolerance : Float} (positive : 0 ≤ tolerance)
    (rows : 0 < m) (cols : 0 < n) {a : MatrixSource Float} (source : a.IsSourceOf p.matrix)
    : ∃ certificate,
        ofParts digits a (.ofVector p.rightSide) (.ofVector p.cost) (.ofVector y.x)
            (.ofVector y.lam) (.ofVector y.s)
          = .ok certificate
        ∧ (certificate.passed (exactly tolerance) ↔ IsSeenWithin digits p y tolerance)
        ∧ (IsWithin digits p y tolerance
          ↔ certificate.passed (exactly tolerance) ∧ IsDefined digits p y) := by
  refine ⟨_, ofParts_ofVector digits rows cols source y, passed_iff positive, ?_⟩
  rw [passed_iff positive]
  exact isWithin_iff

-----------------------------------------------------------------------------------------
-- A single row
-----------------------------------------------------------------------------------------

section Sample

/-- One row with equal costs. -/
def unitRow : LinearProgram Float 1 2 where
  matrix := ⟨#v[[(.last 0, 1)], [(.last 0, 1)]]⟩
  rightSide := #v[1]
  cost := .replicate 2 1

/-- An optimal point of it, apart from the last slack. -/
def unitPoint (slack : Float) : Blocks Float 1 2 where
  x := #v[1, 0]
  lam := #v[1]
  s := #v[0, slack]

/-- The same matrix as it is handed over, by columns. -/
def unitSource : MatrixSource Float :=
  .compressedColumns (.ofSparse ⟨1, 2, unitRow.matrix⟩)

theorem isSourceOf_unitRow
    : unitSource.IsSourceOf unitRow.matrix := by
  let stored : Sparse Float := ⟨1, 2, unitRow.matrix⟩
  have unchanged : (Loose.ofSparse stored).canonical.fromEnd = Loose.ofSparse stored := by
    simp [stored, Loose.ofSparse, Loose.canonical, Loose.fromEnd, unitRow, Columns.mergeColumn,
      Columns.insertRow]
  refine ⟨_, rfl, ?_⟩
  rw [unchanged]
  exact Loose.sparse?_ofSparse stored

/-- The certificate of such a point. -/
def ofUnitPoint (slack : Float) : Except Fault (Certificate (Rounded (bitsFor standardDigits))) :=
  ofParts standardDigits unitSource (.ofVector unitRow.rightSide) (.ofVector unitRow.cost)
    (.ofVector (unitPoint slack).x) (.ofVector (unitPoint slack).lam)
    (.ofVector (unitPoint slack).s)

theorem isWithin_iff_passed_of_isDefined_unitPoint
    : (0 : Float) ≤ 0
      ∧ unitSource.IsSourceOf unitRow.matrix
      ∧ ∃ certificate,
          ofUnitPoint 0 = .ok certificate
          ∧ certificate.passed (exactly 0)
          ∧ IsWithin standardDigits unitRow (unitPoint 0) 0 := by
  have positive : (0 : Float) ≤ 0 := by decide
  obtain ⟨certificate, made, -, within⟩ := isWithin_iff_passed_of_isDefined (y := unitPoint 0)
    positive (by decide) (by decide) isSourceOf_unitRow
  have inside : IsWithin standardDigits unitRow (unitPoint 0) 0 :=
    ⟨by decide +kernel, by decide +kernel, by decide +kernel, by decide +kernel,
      by decide +kernel⟩
  exact ⟨positive, isSourceOf_unitRow, certificate, made, (within.mp inside).1, inside⟩

/-- With an undefined last slack the same point still passes. -/
theorem passed_unitPoint_undefined
    : (∃ certificate,
        ofUnitPoint (0 / 0) = .ok certificate
        ∧ certificate.passed (exactly 0))
      ∧ ¬0 ≤ (unitPoint (0 / 0)).s.get 1 := by
  refine ⟨⟨_, ofParts_ofVector _ (by decide) (by decide) isSourceOf_unitRow _, ?_⟩, ?_⟩
  · decide +kernel
  · decide +kernel

end Sample

end Certificate

end InteriorPoint
