import InteriorPoint.Linear.Columns
import InteriorPoint.Setting.Config

/-! Linear programs in standard form and the points that an interior-point method moves
through.
-/

namespace InteriorPoint

/-- Minimise `costᵀ x` subject to `matrix x = rightSide` and `x ≥ 0`. -/
structure LinearProgram (α : Type) (m n : Nat) where
  matrix : Columns α m n
  rightSide : Vector α m
  cost : Vector α n

/-- The same program with its numbers taken to another arithmetic. -/
def LinearProgram.map {α β : Type} {m n : Nat} (f : α → β) (p : LinearProgram α m n)
    : LinearProgram β m n where
  matrix := p.matrix.map f
  rightSide := p.rightSide.map f
  cost := p.cost.map f

/-- Variables, multipliers and slacks; directions and residuals have the same three parts. -/
structure Blocks (α : Type) (m n : Nat) where
  x : Vector α n
  lam : Vector α m
  s : Vector α n

namespace Blocks

variable {α : Type} {m n : Nat}

/-- The same number in all places. -/
def filled (value : α) : Blocks α m n where
  x := Vector.replicate n value
  lam := Vector.replicate m value
  s := Vector.replicate n value

/-- The same point with its numbers taken to another arithmetic. -/
def map {β : Type} (f : α → β) (p : Blocks α m n) : Blocks β m n where
  x := p.x.map f
  lam := p.lam.map f
  s := p.s.map f

/-- The three parts one after another. -/
def flatten (p : Blocks α m n) : Vector α (n + m + n) :=
  p.x ++ p.lam ++ p.s

/-- The three parts of a long vector. -/
def ofFlat (v : Vector α (n + m + n)) : Blocks α m n where
  x := Vector.ofFn fun i => v[i.val]
  lam := Vector.ofFn fun i => v[n + i.val]
  s := Vector.ofFn fun i => v[n + m + i.val]

@[simp]
theorem ofFlat_flatten (p : Blocks α m n) : ofFlat p.flatten = p := by
  obtain ⟨x, lam, s⟩ := p
  simp only [ofFlat, flatten, Blocks.mk.injEq]
  refine ⟨?_, ?_, ?_⟩ <;> apply Vector.ext <;> intro i hi
  · simp
  · simp
  · rw [Vector.getElem_ofFn, Vector.getElem_append_right (by omega) (by omega)]
    simp only [Nat.add_sub_cancel_left]

end Blocks

end InteriorPoint
