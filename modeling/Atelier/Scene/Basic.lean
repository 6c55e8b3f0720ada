import Atelier.Drawing.Shape

/-!
# Scenes

A scene is a drawing with a name that can be drawn for any frame of an animation. Drawing takes its
random numbers from the studio it is drawn in.
-/

namespace Atelier

/-- A drawing for every tick. -/
structure Scene where
  name : String
  description : String
  draw : UInt64 → Making Shape

/-- A frame of a scene, and how many random numbers had been drawn when it was done. -/
structure Frame where
  shape : Shape
  draws : Nat

/-- Draws the frames of some ticks, one after the other. -/
def Scene.frames (s : Scene) : List UInt64 → Making (List Frame)
  | [] => return []
  | tick :: rest => do
    let shape ← s.draw tick
    let draws := (← get).source.draws
    let frames ← s.frames rest
    return ⟨shape, draws⟩ :: frames

end Atelier
