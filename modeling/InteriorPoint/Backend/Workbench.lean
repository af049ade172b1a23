import InteriorPoint.Backend.Lifecycle

/-! Several named assemblies and one backend. A name can be given away again, while the backend
stays bound to the assembly it was bound to.
-/

namespace InteriorPoint

/-- Assemblies in the order in which they were made, the last one of each name, and a backend
that refers to assemblies by their number.
-/
structure Workbench {α σ : Type} (engine : Engine α σ) where
  assemblies : List (AnyTriplet α)
  names : List (String × Nat)
  backend : Backend engine Nat

namespace Workbench

variable {α σ : Type} {engine : Engine α σ}

def fresh (engine : Engine α σ) (state : σ) : Workbench engine where
  assemblies := []
  names := []
  backend := .fresh engine state

/-- The number of the assembly that has a name now. -/
def number? (w : Workbench engine) (name : String) : Option Nat :=
  (w.names.find? fun entry => entry.1 == name).map (·.2)

/-- The assembly of a number as a square one; nothing else is ever bound. -/
def read (w : Workbench engine) (number : Nat) : SquareTriplet α :=
  ((w.assemblies[number]?).bind AnyTriplet.square?).getD ⟨0, ⟨0, []⟩⟩

/-- Makes a new assembly and puts entries into it; it gets the name once all of them fit. -/
def make (w : Workbench engine) (name : String) (rows cols capacity : Int)
    (entries : List (Int × Int × α))
    : Except Triplet.Fault (Workbench engine) := do
  let empty ← Triplet.new rows cols capacity
  let content ← entries.foldlM (fun t (i, j, x) => t.put i j x) empty.content
  pure { w with
    assemblies := w.assemblies ++ [⟨empty.rows, empty.cols, content⟩]
    names := (name, w.assemblies.length) :: w.names }

/-- Carries out one step on the assembly of a number. -/
def edit (w : Workbench engine) (number : Nat) (command : Triplet.Command α)
    : Except Triplet.Fault (Workbench engine) :=
  match w.assemblies[number]? with
  | none => .ok w
  | some t =>
      (t.content.apply command).map fun content =>
        { w with assemblies := w.assemblies.set number ⟨t.rows, t.cols, content⟩ }

end Workbench

end InteriorPoint
