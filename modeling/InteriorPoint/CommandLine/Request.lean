import InteriorPoint.Backend.Direct
import InteriorPoint.CommandLine.Switch
import InteriorPoint.Problem.Catalogue
import InteriorPoint.Setting.Config

/-! What a command line asks for. Arguments are taken in order: a later value of a switch
replaces an earlier one, and the first fault ends the reading.
-/

namespace InteriorPoint.CommandLine

/-- A problem that can be asked for by name. -/
inductive Demo where
  | builtIn (entry : Catalogue)
  | random
  deriving DecidableEq, Repr

namespace Demo

def name : Demo → String
  | builtIn entry => entry.name
  | random => "random"

/-- All of them, in the order in which they are listed. -/
def all : List Demo :=
  Catalogue.all.map builtIn ++ [random]

def ofName? (text : String) : Option Demo :=
  all.find? fun demo => demo.name == text

end Demo

/-- Where the problem comes from. -/
inductive Source where
  | file (path : String)
  | demo (which : Demo)
  deriving DecidableEq, Repr

/-- The switch that gives a source. -/
def Source.switch : Source → Switch
  | file _ => .problem
  | demo _ => .demo

/-- What is asked for, as long as the source may still be missing. -/
structure Draft where
  source : Option Source
  rows : Int
  cols : Int
  seed : Option Int
  limit : Int
  tolerance : Float
  feasibility : Option Float
  solver : Direct
  verbose : Bool
  timing : Bool
  certify : Option Int
  output : Option String
  plot : Option String

/-- What is asked for if nothing is said. -/
def Draft.standard : Draft where
  source := none
  rows := 10
  cols := 30
  seed := none
  limit := Config.standard.iterationLimit
  tolerance := Config.standard.gapTolerance
  feasibility := Config.standard.feasibilityTolerance
  solver := .standard
  verbose := false
  timing := false
  certify := none
  output := none
  plot := none

/-- What a command line asks for, and the arguments that belong to no switch. -/
structure Progress where
  draft : Draft
  leftOver : List String

/-- Why the reading of a command line ends early. -/
inductive Stop where
  | help
  | refused (fault : UsageFault)

/-- A whole number as the value of a switch. -/
def readWhole (s : Switch) (text : String) : Except UsageFault Int :=
  match Decimal.wholeNumber? text with
  | some n => .ok n
  | none => .error (.notWhole s text)

/-- A double as the value of a switch. -/
def readNumber (s : Switch) (text : String) : Except UsageFault Float :=
  match Decimal.double? text with
  | some x => .ok x
  | none => .error (.notNumber s text)

namespace Draft

/-- Notes where the problem comes from. A file and a demo exclude each other. -/
def withSource (source : Source) (d : Draft) : Except UsageFault Draft :=
  match d.source with
  | some other =>
      if other.switch = source.switch then .ok { d with source := some source }
      else .error (.conflict source.switch other.switch)
  | none => .ok { d with source := some source }

/-- Notes the value of a switch. -/
def withValue (s : Switch) (text : String) (d : Draft) : Except UsageFault Draft :=
  match s with
  | .problem => d.withSource (.file text)
  | .demo =>
      match Demo.ofName? text with
      | some which => d.withSource (.demo which)
      | none => .error (.notChoice s text (Demo.all.map Demo.name))
  | .rows => (readWhole s text).map fun n => { d with rows := n }
  | .cols => (readWhole s text).map fun n => { d with cols := n }
  | .seed => (readWhole s text).map fun n => { d with seed := some n }
  | .limit => (readWhole s text).map fun n => { d with limit := n }
  | .tolerance => (readNumber s text).map fun x => { d with tolerance := x }
  | .feasibility => (readNumber s text).map fun x => { d with feasibility := some x }
  | .solver =>
      if text = Direct.dense.name then .ok { d with solver := .dense }
      else if text = Direct.sparse.name then .ok { d with solver := .sparse }
      else .error (.notChoice s text Direct.names)
  | .certify => (readWhole s text).map fun n => { d with certify := some n }
  | .output => .ok { d with output := some text }
  | .plot => .ok { d with plot := some text }
  | .help | .verbose | .timing => .error (.valueUnwanted s text)

/-- Notes a switch without a value. -/
def withFlag (s : Switch) (d : Draft) : Draft :=
  match s with
  | .verbose => { d with verbose := true }
  | .timing => { d with timing := true }
  | _ => d

end Draft

/-- The letters behind the one-letter switch for help, of which there has to be one: it may be
repeated, and whatever else follows is refused.
-/
def helpLetters : List Char → Stop
  | ['h'] => .help
  | 'h' :: rest => helpLetters rest
  | letters => .refused (.valueUnwanted .help (String.ofList letters))

/-- Takes a switch with what is attached to it and the value that follows, if one does; answers
whether that value was used up.
-/
def takeSwitch (s : Switch) (attached : Attached) (next : Option String) (d : Draft)
    : Except Stop (Draft × Bool) :=
  let valued (text : String) (used : Bool) : Except Stop (Draft × Bool) :=
    match d.withValue s text with
    | .ok d => .ok (d, used)
    | .error fault => .error (.refused fault)
  match attached with
  | .value text => valued text false
  | .letters text => .error (helpLetters text.toList)
  | .none =>
      if s.takesValue then
        match next with
        | some text => valued text true
        | none => .error (.refused (.valueMissing s))
      else if s = .help then .error .help
      else .ok (d.withFlag s, false)

/-- Takes the arguments one after another. -/
def Progress.take (p : Progress) : List Argument → Except Stop Progress
  | [] => .ok p
  | .value text :: rest => Progress.take { p with leftOver := p.leftOver ++ [text] } rest
  | .unknown text :: rest => Progress.take { p with leftOver := p.leftOver ++ [text] } rest
  | .divider :: rest => Progress.take { p with leftOver := p.leftOver ++ ["--"] } rest
  | .switch s attached :: .value text :: rest =>
      match takeSwitch s attached (some text) p.draft with
      | .error stop => .error stop
      | .ok (draft, true) => Progress.take { p with draft } rest
      | .ok (draft, false) =>
          Progress.take ⟨draft, p.leftOver ++ [text]⟩ rest
  | .switch s attached :: rest =>
      match takeSwitch s attached none p.draft with
      | .error stop => .error stop
      | .ok (draft, _) => Progress.take { p with draft } rest

/-- What a command line asks for: a source, and the rest of the draft. -/
structure Request where
  source : Source
  draft : Draft

/-- Reads a command line. Shortened switches are looked up before anything else; a missing source
weighs more than arguments that are left over.
-/
def Request.read (texts : List String) : Except Stop Request :=
  match Argument.ofTexts texts with
  | .error fault => .error (.refused fault)
  | .ok arguments =>
      match Progress.take ⟨.standard, []⟩ arguments with
      | .error stop => .error stop
      | .ok ⟨draft, leftOver⟩ =>
          match draft.source with
          | none => .error (.refused .sourceMissing)
          | some source =>
              if leftOver.isEmpty then .ok ⟨source, draft⟩
              else .error (.refused (.leftOver leftOver))

end InteriorPoint.CommandLine
