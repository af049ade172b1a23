import InteriorPoint.File.Path
import InteriorPoint.Scalar
import InteriorPoint.Text.LowerCase
import InteriorPoint.Text.Quoted

/-! Convergence figures: the relative gap and the duality measure of every iteration, on a
logarithmic scale.
-/

namespace InteriorPoint

/-- The scale of an axis. -/
inductive Scale where
  | linear
  | log
  deriving DecidableEq, Repr

def Scale.name : Scale → String
  | linear => "linear"
  | log => "log"

/-- A named line through points. -/
structure Curve where
  label : String
  points : List (Int × Float)

/-- A figure with one pair of axes. -/
structure Figure where
  title : String
  xLabel : String
  yLabel : String
  xScale : Scale
  yScale : Scale
  curves : List Curve

/-- What a figure shows of an iteration. -/
structure TracePoint where
  iteration : Int
  gap : Float
  mu : Float

/-- Why there is no figure, or no image of it. -/
inductive FigureFault where
  | emptyHistory
  | format (name : String)
  | resolution
  | size (width height : Int)

/-- The kinds of images that consist of single dots, by the endings of their files. -/
def dotFormats : List String :=
  ["avif", "gif", "jpeg", "jpg", "png", "raw", "rgba", "tif", "tiff", "webp"]

/-- The kinds of images, by the endings of their files. -/
def imageFormats : List String :=
  ["avif", "eps", "gif", "jpeg", "jpg", "pdf", "pgf", "png", "ps", "raw", "rgba", "svg", "svgz",
    "tif", "tiff", "webp"]

/-- The kind of an image whose file has no ending. -/
def standardImageFormat : String :=
  "png"

/-- The dots per inch of an image, unless another number is asked for. -/
def standardResolution : Int := 150

/-- An image with as many dots as this in one direction is too large. -/
def dotLimit : Int := 8388608

def FigureFault.message : FigureFault → String
  | emptyHistory => "Empty iteration history"
  | format name =>
      "Format " ++ Text.quoted name ++ " is not supported (supported formats: "
        ++ ", ".intercalate imageFormats ++ ")"
  | resolution => "dpi must be positive"
  | size width height =>
      "Image size of " ++ toString width ++ "x" ++ toString height
        ++ " pixels is too large. It must be less than 2^23 in each direction."

namespace Figure

/-- The least positive double with a full mantissa. A logarithmic scale shows nothing below it. -/
def leastShown : Float :=
  (1 : Float).scaleB (-1022)

/-- A curve whose values are raised to where a logarithmic scale can show them. -/
def curve (label : String) (trace : List TracePoint) (value : TracePoint → Float) : Curve :=
  ⟨label, trace.map fun p => (p.iteration, greater (value p) leastShown)⟩

/-- The figure of a trace; without iterations there is none. -/
def ofTrace (trace : List TracePoint) (title : Option String) : Except FigureFault Figure :=
  if trace.isEmpty then .error .emptyHistory
  else
    .ok {
      title := title.getD ""
      xLabel := "iteration"
      yLabel := "value"
      xScale := .linear
      yScale := .log
      curves := [curve "relative gap" trace (·.gap), curve "$\\mu$" trace (·.mu)] }

/-- The ending of a file name after its last dot, if something other than dots stands before. -/
def endingOf (name : List Char) : List Char :=
  let ending := (name.reverse.takeWhile (· != '.')).reverse
  let before := name.take (name.length - ending.length)
  if before.all (· == '.') then [] else ending

/-- The kind of image that a path asks for by its ending, in lower case. -/
def formatOf (path : Path) : String :=
  Text.lower (String.ofList (endingOf (path.names.getLast?.getD "").toList))

/-- Checks the dots per inch of an image of a kind that consists of dots. Images are seven
inches wide and four and a half inches high.
-/
def checkResolution (resolution : Int) : Except FigureFault Unit :=
  let width := 7 * resolution
  let height := 9 * resolution / 2
  if resolution ≤ 0 then .error .resolution
  else if dotLimit ≤ width then .error (.size width height)
  else .ok ()

/-- The file that an image is written to. A name without an ending gets the standard one. -/
def imagePath (path : Path) (resolution : Int) : Except FigureFault Path := do
  let ending := formatOf path
  let format := if ending == "" then standardImageFormat else ending
  if !imageFormats.contains format then throw (.format format)
  if dotFormats.contains format then checkResolution resolution
  if ending == "" then
    let bare := String.ofList (path.text.toList.reverse.dropWhile (· == '.')).reverse
    pure (Path.ofString (bare ++ "." ++ standardImageFormat))
  else pure path

end Figure

end InteriorPoint
