import Atelier.Scene.Basic

/-!
# The gallery

The scenes that come with the library. Two are still and pay no attention to the tick; in the third
the tick turns a ring of circles. How many random numbers a scene draws, and in what order, does not
depend on the tick.
-/

namespace Atelier.Gallery

/-! ## Coloured rectangles -/

/-- The rectangle in a given column, at a random height. -/
def coloredRectangle (n : Nat) : Making Shape := do
  let y ← Making.leaf (.uniformFloat 10 20)
  let fill : Color Value := .css ("hsl(" ++ (n * 30).repr ++ ", 50%, 50%)")
  return .ofForm (.rect (.number (n * 20).toFloat) y (.number 18) (.number 18) none (some fill))

/-- A row of rectangles. -/
def coloredRectangles : Scene where
  name := "colored-rectangles"
  description := "A row of five rectangles at random heights"
  draw _ := do
    let items ← (List.range 5).mapM coloredRectangle
    return Shape.withItems
      (.ofForm (.group (.number 0) (.number 0) (.number 100) (.number 100))) items

/-! ## Circles in squares -/

/-- A square at a random position around a circle of a random hue. -/
def tintedSquare : Making Shape := do
  let shift ← Making.leaf (.uniformFloat (-50) 50)
  let hue ← (100.0 : Float) + shift
  let tint : Color Value := .hsla hue (.number 50) (.number 50) (.number 0.4)
  let circle := Shape.ofForm (.circle (.number 50) (.number 50) (.number 45) none (some tint))
  let stroke : Color Value := .hsla (.number 200) (.number 50) (.number 50) (.number 0.2)
  let fill : Color Value := .hsla (.number 200) (.number 50) (.number 50) (.number 0.5)
  let x ← Making.leaf (.uniformFloat 0 80)
  let y ← Making.leaf (.uniformFloat 0 80)
  return Shape.withItems
    (.ofForm (.rect x y (.number 20) (.number 20) (some stroke) (some fill))) [circle]

/-- Squares with circles in them. -/
def circleInSquares : Scene where
  name := "circle-in-squares"
  description := "Twenty squares at random positions, each holding a tinted circle"
  draw _ := do
    let items ← (List.range 20).mapM fun _ => tintedSquare
    return Shape.withItems
      (.ofForm (.group (.number 0) (.number 0) (.number 50) (.number 50))) items

/-! ## Orbit -/

/-- A full turn, in radians. -/
def turn : Float := 6.283185307179586

/-- The angle of one of eight places on a ring that a tick turns by a tenth of a place. -/
def angle (k : Nat) (tick : UInt64) : Float :=
  (k.toFloat + tick.toFloat / 10.0) * turn / 8.0

/-- The circle at a place on the ring. -/
def orbitingCircle (radius size : Node) (tick : UInt64) (k : Nat) : Making Shape := do
  let dx ← radius * (angle k tick).cos
  let cx ← (50.0 : Float) + dx
  let dy ← radius * (angle k tick).sin
  let cy ← (50.0 : Float) + dy
  let hue ← Making.leaf (.uniformInt 0 360)
  let fill : Color Value := .hsla hue (.number 60) (.number 50) (.number 0.8)
  return .ofForm (.circle cx cy size none (some fill))

/-- A turning ring of circles. -/
def orbit : Scene where
  name := "orbit"
  description := "Eight circles on a ring of random radius, turning with the tick"
  draw tick := do
    let radius ← Making.leaf (.normalFloat 30 5)
    let size ← radius / (6.0 : Float)
    let items ← (List.range 8).mapM (orbitingCircle radius size tick)
    return Shape.withItems
      (.ofForm (.group (.number 0) (.number 0) (.number 100) (.number 100))) items

/-! ## The list -/

/-- All scenes, in the order in which they are listed. -/
def scenes : List Scene :=
  [coloredRectangles, circleInSquares, orbit]

def names : List String :=
  scenes.map Scene.name

def find? (name : String) : Option Scene :=
  scenes.find? fun s => s.name == name

end Atelier.Gallery
