import InteriorPoint.Linear.Vector

/-! The ratio test: how far a vector can move before an entry turns negative. -/

namespace InteriorPoint

variable {α : Type} [LT α] [LE α] [DecidableLT α] [DecidableLE α] {n : Nat}

/-- The quotients of the entries that a move along `-d` makes smaller. -/
def blockingRatios [Zero α] [Div α] (v d : Vector α n) : List α :=
  (List.finRange n).filterMap fun i =>
    if (0 : α) < d.get i then some (v.get i / d.get i) else none

/-- The least of the blocking quotients; without one the move is not limited. -/
def minRatio? [Zero α] [Div α] (v d : Vector α n) : Option α :=
  match blockingRatios v d with
  | [] => none
  | r :: rest => some (rest.foldl lesser r)

/-- A ratio cut off at one; a move without a limit has length one. -/
def unitLength [One α] : Option α → α
  | none => 1
  | some r => firstMin 1 r

end InteriorPoint
