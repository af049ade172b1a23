import InteriorPoint.File.Tree
import InteriorPoint.Problem.Archive
import InteriorPoint.Report.Document
import InteriorPoint.Report.Figure

/-! What files hold: problems, reports and figures; and how problems are saved and loaded. -/

namespace InteriorPoint

/-- What a file holds. -/
inductive Contents where
  | archive (a : Archive)
  | document (d : Document)
  | figure (f : Figure)

/-- Why a problem file is of no use. -/
inductive LoadFault where
  | notFound (path : Path)
  | system (fault : FileFault)
  | notArchive
  | archive (fault : Archive.Fault)

def LoadFault.message : LoadFault → String
  | notFound path => "Problem file not found: " ++ path.text
  | system fault => fault.message
  | notArchive => "The file holds no problem"
  | archive fault => fault.message

/-- Why a figure is not in a file. -/
inductive DrawFault where
  | figure (fault : FigureFault)
  | file (fault : FileFault)

def DrawFault.message : DrawFault → String
  | figure fault => fault.message
  | file fault => fault.message

/-- The ending of problem files. -/
def problemEnding : String :=
  ".npz"

/-- Writes a problem into a tree and answers with the path as it was given. The file itself has
the ending of problem files in any case.
-/
def Problem.save (p : Problem Float) (path : Path) (tree : FileTree Contents)
    : Except FileFault (Path × FileTree Contents) :=
  match tree.makeFolder path.parent with
  | (.error fault, _) => .error fault
  | (.ok (), tree) =>
      (tree.write (path.withEnding problemEnding) (.archive (.ofProblem p))).map
        fun tree => (path, tree)

/-- Reads the problem at a path of a tree. Whatever does not lead to a file is not found, unless
it is a folder or the path is too long to tell.
-/
def Problem.load (path : Path) (tree : FileTree Contents) : Except LoadFault (Problem Float) :=
  match tree.find path.text with
  | .ok (.file (.archive a)) => (a.problem path).mapError .archive
  | .ok (.file _) => .error .notArchive
  | .ok .folder => .error (.system ⟨.isFolder, path⟩)
  | .error .nameTooLong => .error (.system ⟨.nameTooLong, path⟩)
  | .error _ => .error (.notFound path)

/-- Draws a figure into the file of a path. The folder above it is made before it is seen what
kind of image the path asks for.
-/
def Figure.save (f : Figure) (path : Path) (resolution : Int) (tree : FileTree Contents)
    : Except DrawFault Unit × FileTree Contents :=
  match tree.makeFolder path.parent with
  | (.error fault, tree) => (.error (.file fault), tree)
  | (.ok (), tree) =>
      match Figure.imagePath path resolution with
      | .error fault => (.error (.figure fault), tree)
      | .ok image =>
          match tree.write image (.figure f) with
          | .ok tree => (.ok (), tree)
          | .error fault => (.error (.file fault), tree)

end InteriorPoint
