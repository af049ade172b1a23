import InteriorPoint.Decimal.Shortest
import InteriorPoint.Text.Quoted

/-! Structured reports: named fields, lists and single values, written over several lines with
two blanks of indentation for each level.
-/

namespace InteriorPoint

/-- A structured report. Fields keep the order in which they are given. -/
inductive Document where
  | integer (n : Int)
  | number (x : Float)
  | text (s : String)
  | list (items : List Document)
  | fields (entries : List (String × Document))

namespace Document

/-- Numbers are written as in messages, apart from the names of values without digits. -/
def numbers : Decimal.Layout :=
  { Decimal.Layout.plain with undefined := "NaN", infinite := "Infinity" }

/-- A code unit of sixteen bits as an escape. -/
def unitEscape (unit : Nat) : List Char :=
  '\\' :: 'u' :: Text.hexDigits 4 unit

/-- A character between double quotes. Only visible ASCII stands for itself; other characters
are escaped as one or two code units.
-/
def escaped (c : Char) : List Char :=
  if c = '"' || c = '\\' then ['\\', c]
  else if c = '\n' then ['\\', 'n']
  else if c = '\r' then ['\\', 'r']
  else if c = '\t' then ['\\', 't']
  else if c.toNat = 8 then ['\\', 'b']
  else if c.toNat = 12 then ['\\', 'f']
  else if 0x20 ≤ c.toNat && c.toNat < 0x7F then [c]
  else if c.toNat < 0x10000 then unitEscape c.toNat
  else
    let rest := c.toNat - 0x10000
    unitEscape (0xD800 + rest / 0x400) ++ unitEscape (0xDC00 + rest % 0x400)

/-- A text between double quotes. -/
def quoted (s : String) : String :=
  String.ofList ('"' :: s.toList.flatMap escaped ++ ['"'])

/-- Puts items between brackets, each on a line of its own; with no items the brackets meet. -/
def block (depth : Nat) (opening closing : String) (items : List String) : String :=
  let indent (depth : Nat) : String := String.ofList ('\n' :: List.replicate (2 * depth) ' ')
  if items.isEmpty then opening ++ closing
  else
    opening ++ indent (depth + 1) ++ ("," ++ indent (depth + 1)).intercalate items
      ++ indent depth ++ closing

mutual

/-- The text of a report that stands so many levels deep. -/
def render (depth : Nat) : Document → String
  | integer n => toString n
  | number x => numbers.render x
  | text s => quoted s
  | list items => block depth "[" "]" (renderItems (depth + 1) items)
  | fields entries => block depth "\x7b" "\x7d" (renderFields (depth + 1) entries)

def renderItems (depth : Nat) : List Document → List String
  | [] => []
  | item :: rest => item.render depth :: renderItems depth rest

def renderFields (depth : Nat) : List (String × Document) → List String
  | [] => []
  | (key, value) :: rest => (quoted key ++ ": " ++ value.render depth) :: renderFields depth rest

end

/-- The names of the fields. -/
def keys : Document → List String
  | fields entries => entries.map (·.1)
  | _ => []

end Document

end InteriorPoint
