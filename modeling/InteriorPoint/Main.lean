import InteriorPoint.CommandLine.Help
import InteriorPoint.CommandLine.Run
import InteriorPoint.Problem.Listing

/-! The program: reads the problem file that the command line names, runs, prints, and writes
the files that the run left behind. Durations are not measured.
-/

namespace InteriorPoint.Main

open InteriorPoint.CommandLine

/-- The file that a command line reads. -/
def inputPath? (texts : List String) : Option String :=
  match Request.read texts with
  | .ok { source := .file path, .. } => some path
  | _ => none

/-- The text of a file. A figure is listed as its title and a line for each point. -/
def fileText : Contents → String
  | .archive _ => ""
  | .document d => d.render 0
  | .figure f =>
      let line (curve : Curve) (point : Int × Float) : String :=
        curve.label ++ "\t" ++ toString point.1 ++ "\t" ++ Decimal.Layout.plain.render point.2
      "\n".intercalate (f.title :: f.curves.flatMap fun c => c.points.map (line c)) ++ "\n"

/-- The files there are for a command line: the one it reads, if it can be read. -/
def startFiles (texts : List String) : IO (FileTree Contents) := do
  let some text := inputPath? texts | return .empty
  let path := Path.ofString text
  try
    let listing ← IO.FS.readFile path.text
    let archive := (Archive.ofListing? listing).getD .blank
    return (FileTree.empty.store path (.archive archive)).2
  catch _ => return .empty

/-- Writes a report or a figure; problem files stay as they are. -/
def writeFile (place : Place) (contents : Contents) : IO Unit := do
  let path := FileTree.pathTo place
  match contents with
  | .archive _ => return
  | _ =>
    IO.FS.createDirAll path.parent.text
    IO.FS.writeFile path.text (fileText contents)

end InteriorPoint.Main

open InteriorPoint InteriorPoint.CommandLine in
/-- Runs the command line and answers with its code. -/
def main (texts : List String) : IO UInt32 := do
  let account := run "0.000e+00" texts (← Main.startFiles texts)
  for line in account.output do IO.println line
  for line in account.warnings ++ account.errors do IO.eprintln line
  for place in account.files.folders do IO.FS.createDirAll (FileTree.pathTo place).text
  for (place, contents) in account.files.files do Main.writeFile place contents
  match account.exit with
  | .finished code => return code.toUInt32
  | .helped =>
    for line in helpLines do IO.println line
    return 0
  | .refused _ => return 2
  | .escaped kind message =>
    IO.eprintln (kind.name ++ ": " ++ message)
    return 1
  | .undetermined =>
    IO.eprintln "row indices outside the matrix"
    return 1
