import InteriorPoint.File.Path
import InteriorPoint.Text.Quoted

/-! Trees of folders and files. A path is followed component by component, so a folder has to be
there even where the next component leads up again. What was made before a failure stays.
-/

namespace InteriorPoint

/-- A place in a tree: names from the current folder, or from the root, downwards; those that
lead up stand first.
-/
abbrev Place : Type := List String

/-- The folders below the current one, and the files with what they hold. -/
structure FileTree (β : Type) where
  folders : List Place
  files : List (Place × β)

/-- Why a path is refused. -/
inductive FileFault.Cause where
  | missing
  | taken
  | insideFile
  | isFolder
  | nameTooLong
  | nullCharacter
  deriving DecidableEq, Repr

/-- The refusal of a path. -/
structure FileFault where
  cause : FileFault.Cause
  path : Path

namespace FileFault

/-- What messages call the cause of a refusal. -/
def Cause.title : Cause → String
  | missing => "[Errno 2] No such file or directory"
  | taken => "[Errno 17] File exists"
  | insideFile => "[Errno 20] Not a directory"
  | isFolder => "[Errno 21] Is a directory"
  | nameTooLong => "[Errno 36] File name too long"
  | nullCharacter => "embedded null byte"

/-- A path with a null character in it is not shown. -/
def message (fault : FileFault) : String :=
  if fault.cause = .nullCharacter then fault.cause.title
  else fault.cause.title ++ ": " ++ Text.quoted fault.path.text

end FileFault

namespace FileTree

variable {β : Type}

def empty : FileTree β :=
  ⟨[], []⟩

/-- The component that stands for the root. -/
def rootName : String :=
  "/"

/-- The path from the start to a place. -/
def pathTo : Place → Path
  | [] => ⟨"", []⟩
  | name :: rest => if name == rootName then ⟨name, rest⟩ else ⟨"", name :: rest⟩

/-- One step from a place. Above the root there is nothing but the root. -/
def step (here : Place) (name : String) : Place :=
  if name == Path.up then
    match here.getLast? with
    | none => [Path.up]
    | some last =>
        if last == Path.up then here ++ [Path.up]
        else if last == rootName then here
        else here.dropLast
  else here ++ [name]

/-- Whether there is a folder: the current one, those above it, the root and those made. -/
def isFolder (tree : FileTree β) (place : Place) : Bool :=
  place.all (fun name => name == Path.up || name == rootName) || tree.folders.contains place

/-- What a file holds. -/
def contents? (tree : FileTree β) (place : Place) : Option β :=
  (tree.files.find? fun file => file.1 == place).map (·.2)

/-- The most bytes of a name. -/
def nameLimit : Nat := 255

/-- The most bytes of a path. -/
def pathLimit : Nat := 4095

/-- Goes from a place through components, as long as it is a folder from which they lead. -/
def follow (tree : FileTree β) (here : Place) : List String → Except FileFault.Cause Place
  | [] => .ok here
  | name :: rest =>
      if tree.isFolder here then
        if Path.isIdle name then tree.follow here rest
        else if nameLimit < name.utf8ByteSize then .error .nameTooLong
        else tree.follow (step here name) rest
      else if (tree.contents? here).isSome then .error .insideFile
      else .error .missing

/-- The place that a text leads to, whether or not something is there. Idle components count as
well: one that comes last asks for a folder.
-/
def locate (tree : FileTree β) (text : String) : Except FileFault.Cause Place :=
  if text.contains '\x00' then .error .nullCharacter
  else if pathLimit < text.utf8ByteSize then .error .nameTooLong
  else if text.isEmpty then .error .missing
  else
    tree.follow (if text.startsWith rootName then [rootName] else []) (Path.components text)

/-- What is at a place. -/
inductive Node (β : Type) where
  | folder
  | file (contents : β)

def node? (tree : FileTree β) (place : Place) : Option (Node β) :=
  if tree.isFolder place then some .folder else (tree.contents? place).map .file

/-- What a text leads to. -/
def find (tree : FileTree β) (text : String) : Except FileFault.Cause (Node β) := do
  match tree.node? (← tree.locate text) with
  | some node => pure node
  | none => throw .missing

/-- The file that a text leads to. -/
def file? (tree : FileTree β) (text : String) : Option β :=
  match tree.find text with
  | .ok (.file contents) => some contents
  | _ => none

/-- Whether a text leads to a folder. -/
def hasFolder (tree : FileTree β) (text : String) : Bool :=
  match tree.find text with
  | .ok .folder => true
  | _ => false

/-- Whether a text leads to a file or a folder. -/
def has (tree : FileTree β) (text : String) : Bool :=
  match tree.find text with
  | .ok _ => true
  | .error _ => false

/-- Makes one folder where there is nothing yet, inside a folder that is there. -/
def makeOne (tree : FileTree β) (path : Path) : Except FileFault.Cause (FileTree β) := do
  let place ← tree.locate path.text
  if (tree.node? place).isSome then throw .taken
  pure { tree with folders := tree.folders ++ [place] }

/-- A folder need not be made where there is one. -/
def tolerate (tree : FileTree β) (path : Path) (cause : FileFault.Cause)
    : Except FileFault Unit × FileTree β :=
  (if tree.hasFolder path.text then .ok () else .error ⟨cause, path⟩, tree)

/-- Makes a folder inside one that is there, or leaves it as it is. -/
def ensureOne (tree : FileTree β) (path : Path) : Except FileFault Unit × FileTree β :=
  match tree.makeOne path with
  | .ok tree => (.ok (), tree)
  | .error cause => tree.tolerate path cause

/-- Makes the folder at the end of names, the last of which comes first. The folder above it is
made only if the way to it is missing.
-/
def makeFolders (root : String) (tree : FileTree β)
    : List String → Except FileFault Unit × FileTree β
  | [] => tree.ensureOne ⟨root, []⟩
  | name :: above =>
      let path : Path := ⟨root, (name :: above).reverse⟩
      match tree.makeOne path with
      | .ok tree => (.ok (), tree)
      | .error .missing =>
          match makeFolders root tree above with
          | (.ok (), tree) => tree.ensureOne path
          | failed => failed
      | .error cause => tree.tolerate path cause

/-- Makes a folder, and those above it. -/
def makeFolder (tree : FileTree β) (path : Path) : Except FileFault Unit × FileTree β :=
  makeFolders path.root tree path.names.reverse

/-- Writes a file into a folder that is there, over what it held before. -/
def write (tree : FileTree β) (path : Path) (contents : β) : Except FileFault (FileTree β) :=
  match tree.locate path.text with
  | .error cause => .error ⟨cause, path⟩
  | .ok place =>
      if tree.isFolder place then .error ⟨.isFolder, path⟩
      else
        .ok { tree with
          files := (tree.files.filter fun file => file.1 != place) ++ [(place, contents)] }

/-- Writes a file; the folder above it is made first. -/
def store (tree : FileTree β) (path : Path) (contents : β)
    : Except FileFault Unit × FileTree β :=
  match tree.makeFolder path.parent with
  | (.ok (), tree) =>
      match tree.write path contents with
      | .ok tree => (.ok (), tree)
      | .error fault => (.error fault, tree)
  | failed => failed

end FileTree

end InteriorPoint
