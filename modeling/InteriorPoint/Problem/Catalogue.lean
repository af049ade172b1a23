import InteriorPoint.Problem.Basic

/-! Small problems with known optima. -/

namespace InteriorPoint

/-- The problems that are built in. -/
inductive Catalogue where
  | equalCost
  | vertex
  | wyndor
  deriving DecidableEq, Repr

namespace Catalogue

def name : Catalogue → String
  | equalCost => "equal_cost"
  | vertex => "vertex"
  | wyndor => "wyndor"

/-- All of them, by name in alphabetical order. -/
def all : List Catalogue :=
  [equalCost, vertex, wyndor]

def ofName? (text : String) : Option Catalogue :=
  all.find? fun entry => entry.name == text

/-- The problem itself. With equal costs every feasible point is optimal; the second problem has
its optimum at a vertex; the third is a product mix of two goods, with three slack variables.
-/
def problem : Catalogue → Problem Float
  | equalCost => .ofRows equalCost.name #v[#v[1, 1]] [1] [1, 1] [0.5, 0.5] 1
  | vertex => .ofRows vertex.name #v[#v[1, 1]] [4] [-1, -2] [0, 4] (-8)
  | wyndor =>
      .ofRows wyndor.name #v[#v[1, 0, 1, 0, 0], #v[0, 2, 0, 1, 0], #v[3, 2, 0, 0, 1]]
        [4, 12, 18] [-3, -5, 0, 0, 0] [2, 6, 2, 0, 0] (-36)

end Catalogue

end InteriorPoint
