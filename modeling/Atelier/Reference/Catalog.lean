import Atelier.Reference.Basic

/-!
# The catalog

Every type of the drawing library with its fields, in sections.
-/

namespace Atelier.Reference

/-! ## Shapes -/

/-- The fields of a shape: its numbers, the colours it can carry, and its children. -/
def shapeFields (numbers : List (String × FieldKind)) (colors : List String) : List Field :=
  numbers.map (fun (name, kind) => Field.required name kind) ++
    colors.map (fun name => Field.optional name .color) ++ [Field.optional "items" .shapes]

def rect : TypeDoc where
  name := "Rect"
  summary := "A rectangle"
  fields := shapeFields [("x", .float), ("y", .float), ("width", .float), ("height", .float)]
    ["stroke", "fill"]

def square : TypeDoc where
  name := "Square"
  summary := "A square"
  fields := shapeFields [("x", .float), ("y", .float), ("side", .float)] ["stroke", "fill"]

def ellipse : TypeDoc where
  name := "Ellipse"
  summary := "An ellipse centred on (cx, cy)"
  fields := shapeFields [("cx", .float), ("cy", .float), ("rx", .float), ("ry", .float)]
    ["stroke", "fill"]

def circle : TypeDoc where
  name := "Circle"
  summary := "A circle centred on (cx, cy)"
  fields := shapeFields [("cx", .float), ("cy", .float), ("r", .float)] ["stroke", "fill"]

def polygon : TypeDoc where
  name := "Polygon"
  summary := "A regular polygon"
  fields := shapeFields [("cx", .float), ("cy", .float), ("r", .float), ("sides", .int)]
    ["stroke", "fill"]

def line : TypeDoc where
  name := "Line"
  summary := "A line segment"
  fields := shapeFields [("x0", .float), ("y0", .float), ("x1", .float), ("y1", .float)] ["stroke"]

def group : TypeDoc where
  name := "Group"
  summary := "A group of shapes"
  fields := shapeFields [("x", .float), ("y", .float), ("width", .float), ("height", .float)] []

def shapes : List TypeDoc :=
  [rect, square, ellipse, circle, polygon, line, group]

/-! ## Distributions -/

/-- The entry of a distribution, which has two parameters of one kind. -/
def distribution (name summary first second : String) (kind : FieldKind) : TypeDoc :=
  ⟨name, summary, [Field.required first kind, Field.required second kind]⟩

def distributions : List TypeDoc :=
  [distribution "uniform_float" "Uniform draw in [low, high)" "low" "high" .float,
   distribution "uniform_int" "Uniform draw in [low, high), truncated" "low" "high" .int,
   distribution "normal_float" "Normal draw" "mean" "st_dev" .float,
   distribution "normal_int" "Normal draw, truncated" "mean" "st_dev" .float]

/-! ## Colours -/

/-- The entry of a colour made of channels. -/
def color (name summary : String) (channels : List String) : TypeDoc :=
  ⟨name, summary, channels.map fun channel => Field.required channel .float⟩

def colors : List TypeDoc :=
  [color "Color::hsla" "Hue, saturation and luminance (percent) with alpha"
    ["hue", "sat", "lum", "alpha"],
   color "Color::rgba" "Red, green and blue channels with alpha" ["red", "green", "blue", "alpha"]]

/-! ## Sections -/

inductive Section where
  | shapes
  | distributions
  | colors
deriving DecidableEq, Repr

def Section.title : Section → String
  | shapes => "Shapes"
  | distributions => "Distributions"
  | colors => "Colors"

/-- Every entry, by section. -/
def catalog : List (Section × List TypeDoc) :=
  [(.shapes, shapes), (.distributions, distributions), (.colors, colors)]

end Atelier.Reference
