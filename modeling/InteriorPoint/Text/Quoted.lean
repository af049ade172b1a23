import InteriorPoint.Text.Printable

/-! Quoted texts, as messages show them: single quotes unless the text holds a single quote
and no double one, and an escape for whatever would not be visible.
-/

namespace InteriorPoint.Text

/-- The lower-case hexadecimal digits of a number, at least `width` of them. -/
def hexDigits (width n : Nat) : List Char :=
  let digits := Nat.toDigits 16 n
  List.replicate (width - digits.length) '0' ++ digits

/-- The mark that encloses a text. -/
def quoteMark (text : List Char) : Char :=
  if text.contains '\'' && !text.contains '"' then '"' else '\''

/-- A character inside a quoted text; the least of three escape widths that holds the code
point is taken.
-/
def escaped (mark c : Char) : List Char :=
  if c = mark || c = '\\' then ['\\', c]
  else if c = '\t' then ['\\', 't']
  else if c = '\n' then ['\\', 'n']
  else if c = '\r' then ['\\', 'r']
  else if isPrintable c then [c]
  else if c.toNat < 0x100 then '\\' :: 'x' :: hexDigits 2 c.toNat
  else if c.toNat < 0x10000 then '\\' :: 'u' :: hexDigits 4 c.toNat
  else '\\' :: 'U' :: hexDigits 8 c.toNat

/-- The text between its marks. -/
def quoted (text : String) : String :=
  let chars := text.toList
  let mark := quoteMark chars
  String.ofList (mark :: chars.flatMap (escaped mark) ++ [mark])

end InteriorPoint.Text
