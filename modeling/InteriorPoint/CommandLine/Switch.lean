import InteriorPoint.Decimal.Literal
import InteriorPoint.Text.Quoted

/-! The switches of the command line and how arguments are told apart: switches in full or
shortened, values, and arguments that only look like switches.
-/

namespace InteriorPoint.CommandLine

/-- The switches. -/
inductive Switch where
  | help
  | problem
  | demo
  | rows
  | cols
  | seed
  | limit
  | tolerance
  | feasibility
  | solver
  | verbose
  | timing
  | certify
  | output
  | plot
  deriving DecidableEq, Repr

namespace Switch

/-- All switches, in the order in which they are listed. -/
def all : List Switch :=
  [help, problem, demo, rows, cols, seed, limit, tolerance, feasibility, solver, verbose, timing,
    certify, output, plot]

/-- The spellings of a switch. -/
def names : Switch → List String
  | help => ["-h", "--help"]
  | problem => ["--problem"]
  | demo => ["--demo"]
  | rows => ["--nl"]
  | cols => ["--nx"]
  | seed => ["--seed"]
  | limit => ["--nmaxit"]
  | tolerance => ["--tol"]
  | feasibility => ["--feastol"]
  | solver => ["--solver"]
  | verbose => ["--verbose"]
  | timing => ["--timing"]
  | certify => ["--certify-dps"]
  | output => ["--output"]
  | plot => ["--plot"]

/-- What messages call a switch. -/
def title (s : Switch) : String :=
  "/".intercalate s.names

/-- Whether a value belongs to the switch. -/
def takesValue : Switch → Bool
  | help | verbose | timing => false
  | _ => true

/-- All spellings with their switches. -/
def spellings : List (String × Switch) :=
  all.flatMap fun s => s.names.map fun name => (name, s)

/-- The switch of a full spelling. -/
def ofName? (name : String) : Option Switch :=
  (spellings.find? fun pair => pair.1 == name).map (·.2)

end Switch

/-- Why a command line is refused. -/
inductive UsageFault where
  | ambiguous (text : String) (candidates : List String)
  | valueMissing (switch : Switch)
  | valueUnwanted (switch : Switch) (text : String)
  | notWhole (switch : Switch) (text : String)
  | notNumber (switch : Switch) (text : String)
  | notChoice (switch : Switch) (text : String) (choices : List String)
  | conflict (switch other : Switch)
  | sourceMissing
  | leftOver (texts : List String)

def UsageFault.message : UsageFault → String
  | ambiguous text candidates =>
      "ambiguous option: " ++ text ++ " could match " ++ ", ".intercalate candidates
  | valueMissing s => "argument " ++ s.title ++ ": expected one argument"
  | valueUnwanted s text =>
      "argument " ++ s.title ++ ": ignored explicit argument " ++ Text.quoted text
  | notWhole s text => "argument " ++ s.title ++ ": invalid int value: " ++ Text.quoted text
  | notNumber s text => "argument " ++ s.title ++ ": invalid float value: " ++ Text.quoted text
  | notChoice s text choices =>
      "argument " ++ s.title ++ ": invalid choice: " ++ Text.quoted text ++ " (choose from "
        ++ ", ".intercalate (choices.map Text.quoted) ++ ")"
  | conflict s other =>
      "argument " ++ s.title ++ ": not allowed with argument " ++ other.title
  | sourceMissing =>
      "one of the arguments " ++ Switch.problem.title ++ " " ++ Switch.demo.title
        ++ " is required"
  | leftOver texts => "unrecognized arguments: " ++ " ".intercalate texts

/-- What stands behind a switch in the same argument: nothing, a text after an equals sign, or
more letters after a one-letter switch, which may be set off by an equals sign.
-/
inductive Attached where
  | none
  | value (text : String)
  | letters (text : String)
  deriving DecidableEq, Repr

/-- A value after an equals sign as more letters. -/
def Attached.asLetters : Attached → Attached
  | value text => letters text
  | attached => attached

/-- An argument by its role. -/
inductive Argument where
  | value (text : String)
  | switch (s : Switch) (attached : Attached)
  | unknown (text : String)
  | divider
  deriving DecidableEq, Repr

namespace Argument

/-- Splits at the first equals sign. -/
def splitEquals (text : String) : String × Attached :=
  let before := text.toList.takeWhile (· != '=')
  match text.toList.drop before.length with
  | [] => (text, .none)
  | _ :: after => (String.ofList before, .value (String.ofList after))

/-- Whether a text reads as a negative number: digits after the sign, or digits around a point
of which those after it are not missing. A line break at the end does not count.
-/
def isNegativeNumber (text : List Char) : Bool :=
  let isDigit (c : Char) : Bool := (Text.digitValue? c).isSome
  let body := if text.getLast? == some '\n' then text.dropLast else text
  match body with
  | '-' :: digits =>
      match digits.dropWhile isDigit with
      | [] => !digits.isEmpty
      | '.' :: fraction => !fraction.isEmpty && fraction.all isDigit
      | _ => false
  | _ => false

/-- The spellings that a shortened one may stand for. One that starts with two dashes is cut off
at an equals sign; one that starts with a single dash may be a one-letter switch with more
letters after it.
-/
def candidates (text : String) : List (String × Switch × Attached) :=
  if text.startsWith "--" then
    let (beginning, attached) := splitEquals text
    Switch.spellings.filterMap fun (name, s) =>
      if name.startsWith beginning then some (name, s, attached) else none
  else
    let letter := String.ofList (text.toList.take 2)
    Switch.spellings.filterMap fun (name, s) =>
      if name == letter then some (name, s, .letters (String.ofList (text.toList.drop 2)))
      else if name.startsWith text then some (name, s, .none)
      else none

/-- An argument that starts with a dash and is no full spelling. -/
def ofDashed (text : String) : Except UsageFault Argument :=
  match candidates text with
  | [(_, s, attached)] => .ok (.switch s attached)
  | [] =>
      if isNegativeNumber text.toList || text.toList.contains ' ' then .ok (.value text)
      else .ok (.unknown text)
  | several => .error (.ambiguous text (several.map (·.1)))

/-- The role of an argument before any divider. -/
def ofText (text : String) : Except UsageFault Argument :=
  if !text.startsWith "-" then .ok (.value text)
  else
    match Switch.ofName? text with
    | some s => .ok (.switch s .none)
    | none =>
        if text == "-" then .ok (.value text)
        else
          let (name, attached) := splitEquals text
          match Switch.ofName? name with
          | some s =>
              .ok (.switch s (if name.startsWith "--" then attached else attached.asLetters))
          | none => ofDashed text

/-- The roles of all arguments. After two dashes alone there are only values. -/
def ofTexts : List String → Except UsageFault (List Argument)
  | [] => .ok []
  | text :: rest =>
      if text == "--" then .ok (.divider :: rest.map .value)
      else do
        let first ← ofText text
        let others ← ofTexts rest
        pure (first :: others)

end Argument

end InteriorPoint.CommandLine
