import InteriorPoint.Backend.Engine

/-! Engines under observation: calls are counted over the whole life of the engine, and a
chosen call can be made to fail.
-/

namespace InteriorPoint

/-- How often an engine was called. -/
structure Counts where
  factorizations : Nat
  solves : Nat
  releases : Nat
  deriving DecidableEq, Repr

/-- Which factorization and which solve, counted from one, are to fail. -/
structure Plan where
  factorization : Option Nat
  solve : Option Nat

namespace Engine

variable {α σ : Type}

/-- Counts the calls of an engine. A call that is to fail is counted and does not reach the
engine.
-/
def monitored (engine : Engine α σ) (plan : Plan) : Engine α (σ × Counts) where
  name := engine.name
  Factors := engine.Factors
  factorize t state :=
    let (inner, counts) := state
    let counts := { counts with factorizations := counts.factorizations + 1 }
    if plan.factorization = some counts.factorizations then
      (.error .injected, inner, counts)
    else
      let (result, inner) := engine.factorize t inner
      (result, inner, counts)
  solve factors transposed rhs state :=
    let (inner, counts) := state
    let counts := { counts with solves := counts.solves + 1 }
    if plan.solve = some counts.solves then (.error .injected, inner, counts)
    else
      let (result, inner) := engine.solve factors transposed rhs inner
      (result, inner, counts)
  release state :=
    (engine.release state.1, { state.2 with releases := state.2.releases + 1 })

end Engine

end InteriorPoint
