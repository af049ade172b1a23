import InteriorPoint.Linear.Triplet

/-! Engines factor square matrices and solve with the factors. What an engine answers is its
own affair: the life of a backend is the same around every one.
-/

namespace InteriorPoint

/-- Why an engine does not factor a matrix. -/
inductive FactorFault where
  | singular
  | factorNotFinite
  | matrixNotFinite
  | zeroPivot (number : Nat)
  | injected
  deriving DecidableEq, Repr

/-- Why an engine does not solve with its factors. -/
inductive SolveFault where
  | injected
  deriving DecidableEq, Repr

/-- A way to factor and solve, over a state of its own that outlives every factorization. -/
structure Engine (α σ : Type) where
  name : String
  Factors : Nat → Type
  factorize : {size : Nat} → Triplet α size size → σ → Except FactorFault (Factors size) × σ
  /-- Solves with the matrix or, where the flag says so, with its transpose. -/
  solve : {size : Nat} → Factors size → (transposed : Bool) → Vector α size → σ
    → Except SolveFault (Vector α size) × σ
  release : σ → σ

end InteriorPoint
