import InteriorPoint.Scalar
import InteriorPoint.Text.Character

/-! Reading of number texts: whole numbers and decimals with optional sign, exponent and
single underscores between digits, in the digits of any script.
-/

namespace InteriorPoint.Decimal

open InteriorPoint.Text

/-- What a run of digits with single underscores between them is worth: the value, the count
of digits and the text after the run; nothing when no digit starts the text.
-/
structure Run where
  value : Nat
  count : Nat
  rest : List Char

/-- Continues a run whose last character read was a digit. -/
def Run.extend (value count : Nat) : List Char → Run
  | [] => ⟨value, count, []⟩
  | '_' :: c :: rest =>
      match digitValue? c with
      | some digit => Run.extend (10 * value + digit) (count + 1) rest
      | none => ⟨value, count, '_' :: c :: rest⟩
  | c :: rest =>
      match digitValue? c with
      | some digit => Run.extend (10 * value + digit) (count + 1) rest
      | none => ⟨value, count, c :: rest⟩

/-- Reads the digits that a text starts with. -/
def Run.read? : List Char → Option Run
  | [] => none
  | c :: rest => (digitValue? c).map fun digit => Run.extend digit 1 rest

/-- Reads one optional sign. -/
def readSign : List Char → Bool × List Char
  | '-' :: rest => (true, rest)
  | '+' :: rest => (false, rest)
  | text => (false, text)

/-- What a text says when it is read as a whole number. -/
inductive Whole where
  | malformed
  | tooLong (digits : Nat)
  | number (n : Int)
  deriving Repr, DecidableEq

/-- The most digits that a whole number may be written with. -/
def digitLimit : Nat := 4300

/-- Blanks, a sign and a run of digits that leaves nothing over. The digits are counted before
it is seen what stands after the run, unless that is an underscore.
-/
def Whole.read (text : String) : Whole :=
  let (negative, body) := readSign (trimBlanks text.toList)
  match Run.read? body with
  | none => .malformed
  | some ⟨value, count, rest⟩ =>
      if rest.head? = some '_' then .malformed
      else if digitLimit < count then .tooLong count
      else if rest.isEmpty then .number (if negative then -(value : Int) else value)
      else .malformed

/-- The whole number that a text stands for. -/
def wholeNumber? (text : String) : Option Int :=
  match Whole.read text with
  | .number n => some n
  | _ => none

/-- The double nearest to `digits * 10 ^ exponent`. Far outside the range of doubles the
answer is known without computing the power.
-/
def nearestDouble (digits : Nat) (exponent : Int) : Float :=
  let size : Int := (Nat.toDigits 10 digits).length
  if digits = 0 then 0
  else if 400 < exponent + size then 1 / 0
  else if exponent + size < -400 then 0
  else if exponent < 0 then Float.ofScientific digits true exponent.natAbs
  else Float.ofScientific digits false exponent.natAbs

/-- The exponent of a decimal, from its mark to the end of the text. -/
def readExponent? : List Char → Option Int
  | [] => some 0
  | mark :: rest =>
      if mark = 'e' || mark = 'E' then
        let (negative, body) := readSign rest
        match Run.read? body with
        | some ⟨value, _, []⟩ => some (if negative then -(value : Int) else value)
        | _ => none
      else none

/-- An unsigned decimal: digits before or after a point, or both, and an exponent. -/
def unsignedDecimal? (text : List Char) : Option Float :=
  let whole := (Run.read? text).getD ⟨0, 0, text⟩
  let fraction : Run :=
    match whole.rest with
    | '.' :: rest => (Run.read? rest).getD ⟨0, 0, rest⟩
    | rest => ⟨0, 0, rest⟩
  if whole.count + fraction.count = 0 then none
  else
    (readExponent? fraction.rest).map fun exponent =>
      nearestDouble (whole.value * Nat.pow 10 fraction.count + fraction.value)
        (exponent - fraction.count)

/-- The names of the values that have no digits, in any mixture of cases. -/
def namedValue? (text : List Char) : Option Float :=
  let name := String.ofList (text.map Char.toLower)
  if name = "inf" || name = "infinity" then some (1 / 0)
  else if name = "nan" then some (0 / 0)
  else none

/-- A double: blanks around it, a sign, and a decimal or the name of a value. -/
def double? (text : String) : Option Float :=
  let (negative, body) := readSign (trimBlanks text.toList)
  ((namedValue? body).orElse fun _ => unsignedDecimal? body).map fun x =>
    if negative then -x else x

end InteriorPoint.Decimal
