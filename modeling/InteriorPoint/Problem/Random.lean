import InteriorPoint.Decimal.Binary
import InteriorPoint.Method.Program
import InteriorPoint.Problem.Basic
import InteriorPoint.Random.Stream

/-! Random programs that have an optimum whatever is drawn. An identity among the columns makes
the rows independent; a drawn point makes the equations solvable, and drawn multipliers with
positive slacks bound the objective from below.
-/

namespace InteriorPoint

/-- What is drawn for a program with `m` equations: a block of `k` columns, an order of all
columns, variables and slacks, which are meant to be positive, and multipliers.
-/
structure Draws (α : Type) (m k : Nat) where
  block : Columns α m k
  order : Vector (Fin (k + m)) (k + m)
  order_nodup : order.toList.Nodup
  x : Vector α (k + m)
  lam : Vector α m
  s : Vector α (k + m)

namespace Draws

variable {α : Type} {m k : Nat}

/-- The block and an identity side by side, with the columns in the order drawn. -/
def matrix [One α] (d : Draws α m k) : Columns α m (k + m) :=
  (d.block.beside .identity).arrange d.order

/-- The program that the drawn point solves, with the drawn multipliers and slacks for its
dual.
-/
def program [Zero α] [One α] [Add α] [Mul α] (d : Draws α m k) : LinearProgram α m (k + m) where
  matrix := .canonical d.matrix.entries
  rightSide := Entries.mulVec d.matrix.entries d.x
  cost := addVec (Entries.trMulVec d.matrix.entries d.lam) d.s

/-- The program as a named problem. -/
def toProblem [Zero α] [One α] [Add α] [Mul α] (name : String) (d : Draws α m k) : Problem α :=
  let p := d.program
  { name
    matrix := .ofSparse ⟨m, k + m, p.matrix⟩
    rightSide := p.rightSide.toList
    cost := p.cost.toList
    expectedX := none
    expectedObjective := none }

/-- Draws a block with `count` entries at different positions. -/
def drawBlock (m k count : Nat) (s : RandomStream) : Columns Float m k × RandomStream :=
  let (places, s) := s.shuffle (Vector.ofFn fun p : Fin (m * k) => p)
  let (values, s) := s.vector count (RandomStream.uniform (-1) 1)
  let entries := (places.val.toList.zip values.toList).filterMap fun (p, x) =>
    Entry.of? m k (p.val % m) (p.val / m) x
  (.ofEntries entries, s)

/-- Draws all parts of a program. -/
def draw (m k count : Nat) (s : RandomStream) : Draws Float m k :=
  let (block, s) := drawBlock m k count s
  let (order, s) := s.shuffle (Vector.ofFn fun j : Fin (k + m) => j)
  let (x, s) := s.vector (k + m) (RandomStream.uniform 0.5 1.5)
  let (lam, s) := s.vector m RandomStream.spread
  let (slacks, _) := s.vector (k + m) (RandomStream.uniform 0.5 1.5)
  { block
    order := order.val
    order_nodup := by
      have h := (Vector.perm_iff_toList_perm.1 order.property).nodup_iff
      rw [h, Vector.toList_ofFn]
      exact List.nodup_finRange (k + m)
    x, lam, s := slacks }

/-- Why no random problem is drawn. -/
inductive Fault where
  | dimensions (rows cols : Int)
  | negativeSeed
  | density
  | undefinedDensity

def Fault.message : Fault → String
  | dimensions rows cols =>
      "Need 0 < nl < nx, got nl=" ++ toString rows ++ ", nx=" ++ toString cols
  | negativeSeed => "expected non-negative integer"
  | density => "density expected to be 0 <= density <= 1"
  | undefinedDensity => "cannot convert float NaN to integer"

/-- How many entries a block of a density has; halves go to the even neighbour. -/
def blockCount (density : Float) (m k : Nat) : Except Fault Nat :=
  if density < 0 || 1 < density then .error .density
  else
    match Decimal.Binary.round? (.ofFloat (density * Float.ofNat (m * k))) with
    | some count => .ok count.toNat
    | none => .error .undefinedDensity

/-- The share of the block that has entries, unless another one is asked for. -/
def standardDensity : Float := 0.3

/-- A random problem with more variables than equations. Without a seed it is that of seed
zero.
-/
def problem (rows cols : Int) (density : Float) (seed : Option Int)
    : Except Fault (Problem Float) := do
  if rows ≤ 0 ∨ cols ≤ rows then throw (.dimensions rows cols)
  if seed.getD 0 < 0 then throw .negativeSeed
  let m := rows.toNat
  let k := (cols - rows).toNat
  let count ← blockCount density m k
  let draws := draw m k count (.ofSeed (seed.getD 0).toNat)
  pure (draws.toProblem ("random_" ++ toString rows ++ "x" ++ toString cols))

end Draws

end InteriorPoint
