import InteriorPoint.Linear.Tensor
import InteriorPoint.Method.State

/-! Named parts of the buffers of a solver, and writing to them. -/

namespace InteriorPoint

/-- The buffers that have three parts. -/
inductive Buffer where
  | point
  | direction
  | residual
  deriving DecidableEq

/-- A part of a buffer, or all of it. -/
inductive Part where
  | x
  | lam
  | s
  | all
  deriving DecidableEq

/-- A part of a buffer under its own name. -/
structure View where
  buffer : Buffer
  part : Part

/-- The views by name. Names that begin with `md` mean the negated direction, those with `r`
the residual.
-/
def View.named : List (String × View) :=
  [("y", ⟨.point, .all⟩), ("x", ⟨.point, .x⟩), ("lam", ⟨.point, .lam⟩), ("s", ⟨.point, .s⟩),
    ("mdy", ⟨.direction, .all⟩), ("mdx", ⟨.direction, .x⟩), ("mdl", ⟨.direction, .lam⟩),
    ("mds", ⟨.direction, .s⟩), ("r", ⟨.residual, .all⟩), ("rx", ⟨.residual, .x⟩),
    ("rl", ⟨.residual, .lam⟩), ("rs", ⟨.residual, .s⟩)]

def View.ofName? (name : String) : Option View :=
  (View.named.find? fun entry => entry.1 == name).map (·.2)

/-- Values whose shape does not fit a view of some length. -/
structure ShapeFault where
  found : List Nat
  size : Nat

def ShapeFault.message (fault : ShapeFault) : String :=
  broadcastMessage fault.found [fault.size]

variable {α : Type}

/-- Values for a view of a known length. One value fills it, and leading ones in the shape do
not count.
-/
def Tensor.fit (t : Tensor α) (size : Nat) : Except ShapeFault (Vector α size) :=
  match dropOnes 1 t.shape, t.values with
  | [], [value] | [1], [value] => .ok (Vector.replicate size value)
  | [length], values =>
      if h : values.length = size then .ok ⟨values.toArray, by simpa using h⟩
      else .error ⟨[length], size⟩
  | shape, _ => .error ⟨shape, size⟩

/-- Writes values over a part of a buffer. -/
def Blocks.write {m n : Nat} (blocks : Blocks α m n) (part : Part) (values : Tensor α)
    : Except ShapeFault (Blocks α m n) :=
  match part with
  | .x => (values.fit n).map fun x => { blocks with x }
  | .lam => (values.fit m).map fun lam => { blocks with lam }
  | .s => (values.fit n).map fun s => { blocks with s }
  | .all => (values.fit (n + m + n)).map .ofFlat

/-- Writes values through a view. -/
def State.write {σ : Type} {engine : Engine α σ} {m n : Nat} (st : State engine m n)
    (view : View) (values : Tensor α)
    : Except ShapeFault (State engine m n) :=
  match view.buffer with
  | .point => (st.point.write view.part values).map fun point => { st with point }
  | .direction =>
      (st.direction.write view.part values).map fun direction => { st with direction }
  | .residual => (st.residual.write view.part values).map fun residual => { st with residual }

end InteriorPoint
