/-! Paths as texts. Empty components and components that stay where they are do not count;
components that lead up do, since where they lead depends on what there is.
-/

namespace InteriorPoint

/-- A path: what it starts from, and the names it goes through. -/
structure Path where
  /-- Empty for a path that starts at the current folder. -/
  root : String
  names : List String
  deriving DecidableEq, Repr

namespace Path

/-- The component that leads to the folder above. -/
def up : String :=
  ".."

/-- Splits a text at slashes. -/
def splitSlashes (text : List Char) : List (List Char) :=
  match text with
  | [] => [[]]
  | c :: rest =>
      match splitSlashes rest with
      | [] => [[c]]
      | piece :: others =>
          if c = '/' then [] :: piece :: others else (c :: piece) :: others

/-- Two slashes in front are a root of their own; one slash, or more than two, are the root. -/
def rootOf (text : List Char) : String :=
  match text.takeWhile (· == '/') with
  | [] => ""
  | ['/', '/'] => "//"
  | _ => "/"

/-- The components of a text, empty ones among them. -/
def components (text : String) : List String :=
  (splitSlashes text.toList).map String.ofList

/-- The component that stays where it is. -/
def stay : String :=
  "."

/-- Whether a component leads nowhere else. -/
def isIdle (name : String) : Bool :=
  name == "" || name == stay

/-- Reads a path. -/
def ofString (text : String) : Path where
  root := rootOf text.toList
  names := (components text).filter fun name => !isIdle name

/-- The text of a path, without needless components. -/
def text (p : Path) : String :=
  if p.root == "" && p.names.isEmpty then stay else p.root ++ "/".intercalate p.names

/-- The path without its last name. -/
def parent (p : Path) : Path where
  root := p.root
  names := p.names.dropLast

/-- A name without its ending. The ending starts at the last dot, which neither starts nor ends
the name.
-/
def stemOf (name : List Char) : List Char :=
  let ending := name.reverse.takeWhile (· != '.')
  let before := name.take (name.length - ending.length - 1)
  if ending.isEmpty || before.isEmpty || ending.length == name.length then name else before

/-- The last name without its ending. -/
def stem (p : Path) : String :=
  match p.names.getLast? with
  | none => ""
  | some name => String.ofList (stemOf name.toList)

/-- The path with an ending after its last name, unless it ends so already. -/
def withEnding (ending : String) (p : Path) : Path :=
  if p.text.endsWith ending then p else ofString (p.text ++ ending)

end Path

end InteriorPoint
