import InteriorPoint.Decimal.Literal
import InteriorPoint.Problem.Archive

/-! Problem files as texts. Each line is a key, the lengths of an array, a colon and the values,
with blanks between; the line of the name is the key and the name.
-/

namespace InteriorPoint.Archive

/-- An archive without any part. -/
def blank : Archive :=
  ⟨none, none, none, none, none, none, none⟩

/-- An array from the words after its key. -/
def readArray? {β : Type} (value? : String → Option β) (words : List String)
    : Option (Tensor β) := do
  let lengths ← (words.takeWhile (· != ":")).mapM String.toNat?
  let values ← (words.drop (lengths.length + 1)).mapM value?
  if lengths.foldl (· * ·) 1 = values.length then some ⟨lengths, values⟩ else none

/-- Adds what one line says to an archive. Lines with other keys say nothing. -/
def readLine? (a : Archive) (line : String) : Option Archive :=
  let words := (line.splitOn " ").filter (· != "")
  let numbers := readArray? Decimal.double? (words.drop 1)
  let wholes := readArray? Decimal.wholeNumber? (words.drop 1)
  match words with
  | [] => some a
  | key :: rest =>
      if key == Part.name.key then some { a with name := some (" ".intercalate rest) }
      else if key == Part.values.key then numbers.map fun t => { a with values := some t }
      else if key == Part.rows.key then wholes.map fun t => { a with rows := some t }
      else if key == Part.pointers.key then wholes.map fun t => { a with pointers := some t }
      else if key == Part.shape.key then wholes.map fun t => { a with shape := some t }
      else if key == Part.rightSide.key then numbers.map fun t => { a with rightSide := some t }
      else if key == Part.cost.key then numbers.map fun t => { a with cost := some t }
      else some a

/-- The archive that a text lists. -/
def ofListing? (text : String) : Option Archive :=
  (text.splitOn "\n").foldlM readLine? blank

end InteriorPoint.Archive
